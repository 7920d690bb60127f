import DecodeTables.Proofs.Table

/-!
# The first defect

Building a table ends with a defect, and a list of instructions may have many of them. Each stage of
building fails with its own first fault, and a stage is only come to when the stages before it found
none. For the stages that look back at earlier items, `Numbering.Fault` and `ProbeTable.Fault` say
what is wrong with an item after those in front of it, and `push_eq_error_iff` and
`Represents.add_eq_error_iff` that a step fails with just that. `FirstDefect` puts the stages
together with no mention of how they are run, and `ofDescription_firstDefect` finds it to be the
defect of a description under either order of trials.
-/

namespace DecodeTables

variable {e : Defect}

/-- Where no two items have the same key, an item with some key is the only one. -/
theorem filter_key_eq_singleton_iff {α κ : Type} [BEq κ] [LawfulBEq κ] {key : α → κ} {items : List α}
    (distinct : (items.map key).Nodup) {a : α} {k : κ} :
    items.filter (fun b => key b == k) = [a] ↔ a ∈ items ∧ key a = k := by
  constructor
  · intro only
    have member : a ∈ items.filter (fun b => key b == k) := only ▸ List.mem_singleton_self a
    simpa using member
  · intro listed
    obtain ⟨member, own⟩ := listed
    induction items with
    | nil => cases member
    | cons b rest ih =>
      obtain ⟨other, distinct⟩ := List.nodup_cons.mp distinct
      rcases List.mem_cons.mp member with rfl | member
      · rw [List.filter_cons_of_pos (by rw [own, beq_self_eq_true]), List.filter_eq_nil_iff.mpr]
        intro c later same
        exact other (List.mem_map.mpr ⟨c, later, (beq_iff_eq.mp same).trans own.symm⟩)
      · rw [List.filter_cons_of_neg, ih distinct member]
        intro same
        exact other (List.mem_map.mpr ⟨a, member, own.trans (beq_iff_eq.mp same).symm⟩)

/-! ## Numbering -/

namespace Numbering

/-- What is wrong with a name after other names. -/
inductive Fault (front : List String) (name : String) : Defect → Prop
  | listedTwice (listed : name ∈ front) : Fault front name (.malformed name .listedTwice)
  | symbolTaken {earlier : String} (new : name ∉ front)
      (only : front.filter (fun other => symbol other == symbol name) = [earlier]) :
      Fault front name (.malformed name (.symbolTaken (symbol name) earlier))

variable {n : Numbering} {name : String} {names : List String}

theorem push_eq_error_iff : n.push name = .error e ↔ Fault n.names name e := by
  unfold push
  split
  · rename_i listed
    constructor
    · intro failed
      cases failed
      exact .listedTwice listed
    · intro fault
      cases fault with
      | listedTwice => rfl
      | symbolTaken new => exact absurd listed new
  · rename_i new
    split
    · rename_i earlier found
      have same : symbol earlier = symbol name := by simpa using List.find?_some found
      have only := (filter_key_eq_singleton_iff n.nodup).mpr
        ⟨List.mem_of_find?_eq_some found, same⟩
      constructor
      · intro failed
        cases failed
        exact .symbolTaken new only
      · intro fault
        cases fault with
        | listedTwice listed => exact absurd listed new
        | symbolTaken _ only' =>
          obtain ⟨rfl, -⟩ := List.cons.inj (only.symm.trans only')
          rfl
    · rename_i free
      constructor
      · intro failed
        cases failed
      · intro fault
        cases fault with
        | listedTwice listed => exact absurd listed new
        | symbolTaken _ only =>
          rw [← List.head?_filter, only] at free
          cases free

/-- Numbering names fails with the first fault. -/
theorem ofNames_eq_error_iff : ofNames names = .error e ↔ FirstFault Fault names e :=
  foldlM_eq_error_iff (fun done (n : Numbering) => n.names = done) rfl names_of_push
    fun _ _ _ _ held => held ▸ push_eq_error_iff

theorem name?_of_ordinal? {k : Nat} (own : n.ordinal? name = some k) : n.name? k = some name := by
  obtain ⟨bound, held, -⟩ := List.idxOf?_eq_some_iff.mp own
  exact List.getElem?_eq_some_iff.mpr ⟨bound, held⟩

end Numbering

/-! ## Probe tables -/

namespace ProbeTable

/-- What is wrong with an item after other items, under a numbering. -/
inductive Fault (numbering : Numbering) (front : List (Instruction × Rule))
    (item : Instruction × Rule) : Defect → Prop
  | notEnumerated (missing : numbering.ordinal? item.1.id = none) :
      Fault numbering front item (.malformed item.1.id .notEnumerated)
  | ambiguous {earlier : Instruction × Rule} {ordinal : Nat}
      (numbered : numbering.ordinal? item.1.id = some ordinal)
      (only : front.filter (fun other =>
        (other.1.mask, other.1.value) == (item.1.mask, item.1.value)) = [earlier]) :
      Fault numbering front item
        (.ambiguous earlier.1.id item.1.id item.1.mask item.1.value)

variable {numbering : Numbering} {items : List (Instruction × Rule)} {t : ProbeTable}

/-- A probe finds the row of the only item with the mask and the literal bits. -/
theorem Represents.only_of_find? (before : Represents numbering items t) {mask value : Word}
    {row : Probe} (found : t.find? mask value = some row) : ∃ earlier,
    items.filter (fun other => (other.1.mask, other.1.value) == (mask, value)) = [earlier] ∧
      numbering.name? row.ordinal = some earlier.1.id := by
  obtain ⟨earlier, member, rfl, rfl, isRow⟩ := (before.find?_iff _ _ row).mp found
  obtain ⟨ordinal, own, rfl⟩ := Option.map_eq_some_iff.mp isRow
  have distinct := List.pairwise_map.mpr before.distinct
  exact ⟨earlier, (filter_key_eq_singleton_iff distinct).mpr ⟨member, rfl⟩,
    Numbering.name?_of_ordinal? own⟩

theorem Represents.add_eq_error_iff (before : Represents numbering items t) {i : Instruction}
    {rule : Rule} : t.add numbering i rule = .error e ↔ Fault numbering items (i, rule) e := by
  unfold ProbeTable.add
  split
  · rename_i missing
    constructor
    · intro failed
      cases failed
      exact .notEnumerated missing
    · intro fault
      cases fault with
      | notEnumerated => rfl
      | ambiguous numbered => cases missing.symm.trans numbered
  · rename_i ordinal numbered
    split
    · rename_i row found
      obtain ⟨earlier, only, name⟩ := before.only_of_find? found
      rw [name, Option.getD_some]
      constructor
      · intro failed
        cases failed
        exact .ambiguous numbered only
      · intro fault
        cases fault with
        | notEnumerated missing => cases missing.symm.trans numbered
        | ambiguous _ only' =>
          obtain ⟨rfl, -⟩ := List.cons.inj (only.symm.trans only')
          rfl
    · rename_i absent
      constructor
      · intro failed
        cases failed
      · intro fault
        cases fault with
        | notEnumerated missing => cases missing.symm.trans numbered
        | @ambiguous earlier _ _ only =>
          have distinct := List.pairwise_map.mpr before.distinct
          obtain ⟨member, key⟩ := (filter_key_eq_singleton_iff distinct).mp only
          obtain ⟨row, found⟩ :=
            before.exists_find?_iff.mpr ⟨earlier, member, Prod.mk.inj key⟩
          cases absent.symm.trans found

/-- Building a probe table fails with the first fault. -/
theorem build_eq_error_iff :
    build numbering items = .error e ↔ FirstFault (Fault numbering) items e :=
  foldlM_eq_error_iff (Represents numbering) (represents_empty numbering) represents_of_add
    fun _ _ _ _ before => before.add_eq_error_iff

end ProbeTable

/-! ## Instructions -/

namespace Instruction

variable {id : String} {entry : Entry} {i : Instruction}

/-- An instruction goes by the identifier of its entry. -/
theorem id_of_ofEntry (accepted : ofEntry id entry = .ok i) : i.id = id := by
  unfold ofEntry at accepted
  repeat' split at accepted
  all_goals try cases accepted
  rw [bind_eq_ok] at accepted
  obtain ⟨instruction, accepted, same⟩ := accepted
  rw [← Except.ok.inj same, ← (parts_of_ofEncoding accepted).1]

/-- One instruction in front has the same symbol. -/
inductive SymbolTaken (front : List Instruction) (i : Instruction) : Defect → Prop
  | intro {earlier : Instruction}
      (only : front.filter (fun other => symbol other.id == symbol i.id) = [earlier]) :
      SymbolTaken front i (.malformed i.id (.symbolTaken (symbol i.id) earlier.id))

/-- The fields have no consistent immediate. -/
inductive NoImmediate (i : Instruction) : Defect → Prop
  | intro (inconsistent : Immediate.ofFields? i.fields = none) :
      NoImmediate i (.unsupportedFields i.id ((Field.normalize i.fields).map Field.name))

/-- One instruction in front has the same mask and the same literal bits. -/
inductive KeyTaken (front : List Instruction) (i : Instruction) : Defect → Prop
  | intro {earlier : Instruction}
      (only : front.filter (fun other =>
        (other.mask, other.value) == (i.mask, i.value)) = [earlier]) :
      KeyTaken front i (.ambiguous earlier.id i.id i.mask i.value)

theorem rule_eq_error_iff : i.rule = .error e ↔ NoImmediate i e := by
  have none_iff : Rule.ofFields? i.fields = none ↔ Immediate.ofFields? i.fields = none :=
    Option.map_eq_none_iff
  unfold rule
  split
  · rename_i rule derived
    constructor
    · intro failed
      cases failed
    · intro fault
      obtain ⟨inconsistent⟩ := fault
      rw [none_iff.mpr inconsistent] at derived
      cases derived
  · rename_i missing
    constructor
    · intro failed
      cases failed
      conv_rhs => rw [← i.fields_normal]
      exact .intro (none_iff.mp missing)
    · intro fault
      obtain ⟨_⟩ := fault
      rw [i.fields_normal]

/-- After other names, what is wrong with a new name is that its symbol is taken. -/
theorem numberingFault_iff {front : List Instruction} (new : i.id ∉ front.map Instruction.id) :
    Numbering.Fault (front.map Instruction.id) i.id e ↔ SymbolTaken front i e := by
  constructor
  · intro fault
    cases fault with
    | listedTwice listed => exact absurd listed new
    | symbolTaken _ only =>
      rw [List.filter_map, List.map_eq_singleton_iff] at only
      obtain ⟨earlier, only, rfl⟩ := only
      exact .intro only
  · intro fault
    obtain ⟨only⟩ := fault
    refine .symbolTaken new ?_
    rw [List.filter_map, List.map_eq_singleton_iff]
    exact ⟨_, only, rfl⟩

/-- If its identifier is numbered, what is wrong with an item is that its key is taken. -/
theorem probeFault_iff {numbering : Numbering} {front : List (Instruction × Rule)}
    {item : Instruction × Rule} {ordinal : Nat}
    (numbered : numbering.ordinal? item.1.id = some ordinal) :
    ProbeTable.Fault numbering front item e ↔ KeyTaken (front.map Prod.fst) item.1 e := by
  constructor
  · intro fault
    cases fault with
    | notEnumerated missing => cases missing.symm.trans numbered
    | ambiguous _ only =>
      refine .intro ?_
      rw [List.filter_map, List.map_eq_singleton_iff]
      exact ⟨_, only, rfl⟩
  · intro fault
    obtain ⟨only⟩ := fault
    rw [List.filter_map, List.map_eq_singleton_iff] at only
    obtain ⟨earlier, only, rfl⟩ := only
    exact .ambiguous numbered only

end Instruction

/-! ## Building -/

namespace Table

open Instruction

variable {order : TrialOrder} {instructions : List Instruction}

/-- Under the numbering of the instructions, the first fault of the items is that of the keys. -/
theorem build_eq_error_iff {numbering : Numbering} {rules : List Rule}
    (numbered : Numbering.ofNames (instructions.map Instruction.id) = .ok numbering)
    (derived : instructions.mapM Instruction.rule = .ok rules) :
    ProbeTable.build numbering (instructions.zip rules) = .error e ↔
      FirstFault KeyTaken instructions e := by
  rw [ProbeTable.build_eq_error_iff]
  conv_rhs => rw [← map_fst_zip derived, firstFault_map]
  refine firstFault_congr fun front item back split e => ?_
  have member : item ∈ instructions.zip rules := split ▸ List.mem_append_right _ List.mem_cons_self
  obtain ⟨row, isRow⟩ := Option.isSome_iff_exists.mp (isSome_row? numbered item member)
  obtain ⟨ordinal, own, -⟩ := Option.map_eq_some_iff.mp isRow
  exact probeFault_iff own

/-- The stages of building, each come to when those before it found no fault. -/
theorem ofInstructions_eq_error_iff : ofInstructions order instructions = .error e ↔
    FirstFault Numbering.Fault (instructions.map Instruction.id) e ∨
    (instructions.map fun i => symbol i.id).Nodup ∧
      (FirstFault (fun _ => NoImmediate) instructions e ∨
        (∀ i ∈ instructions, ∃ rule, i.rule = .ok rule) ∧ FirstFault KeyTaken instructions e) := by
  have symbols : (instructions.map Instruction.id).map symbol =
      instructions.map fun i => symbol i.id := List.map_map
  have ruleFault : FirstFault (fun _ i e => i.rule = .error e) instructions e ↔
      FirstFault (fun _ => NoImmediate) instructions e :=
    firstFault_congr fun _ _ _ _ _ => rule_eq_error_iff
  rw [← symbols, ← Numbering.exists_ofNames_iff, ← Numbering.ofNames_eq_error_iff, ← ruleFault,
    ← mapM_eq_error_iff, ← exists_mapM_iff, ofInstructions, bind_eq_error]
  refine or_congr_right ?_
  constructor
  · intro later
    obtain ⟨numbering, numbered, failed⟩ := later
    refine ⟨⟨numbering, numbered⟩, ?_⟩
    rw [bind_eq_error] at failed
    rcases failed with failed | ⟨rules, derived, failed⟩
    · exact .inl failed
    · rw [bind_eq_error] at failed
      rcases failed with failed | ⟨_, _, ⟨⟩⟩
      exact .inr ⟨⟨rules, derived⟩, (build_eq_error_iff numbered derived).mp failed⟩
  · intro later
    obtain ⟨⟨numbering, numbered⟩, failed⟩ := later
    refine ⟨numbering, numbered, bind_eq_error.mpr ?_⟩
    rcases failed with failed | ⟨⟨rules, derived⟩, first⟩
    · exact .inl failed
    · have failed := (build_eq_error_iff numbered derived).mpr first
      exact .inr ⟨rules, derived, bind_eq_error.mpr (.inl failed)⟩

/-- Every identifier is numbered by the time that it is looked up. -/
theorem ofInstructions_ne_notEnumerated {id : String} :
    ofInstructions order instructions ≠ .error (.malformed id .notEnumerated) := by
  intro failed
  rcases ofInstructions_eq_error_iff.mp failed with first | ⟨-, first | ⟨-, first⟩⟩
  all_goals
    obtain ⟨front, i, back, -, -, fault⟩ := first
    cases fault

end Table

/-! ## Descriptions -/

/-- The instructions that entries describe. -/
def Describes (entries : List (String × Entry)) (instructions : List Instruction) : Prop :=
  List.Forall₂ (fun entry i => Instruction.ofEntry entry.1 entry.2 = .ok i) entries instructions

/-- The defect that entries have first. An entry that is no instruction comes before everything else,
then a symbol that is taken, then fields with no consistent immediate, then a mask and literal bits
that are taken. Each is that of the first instruction to have it. -/
inductive FirstDefect (entries : List (String × Entry)) (e : Defect) : Prop
  | entry
      (first : FirstFault (fun _ entry e => Instruction.ofEntry entry.1 entry.2 = .error e) entries e)
  | symbol {instructions : List Instruction} (described : Describes entries instructions)
      (first : FirstFault Instruction.SymbolTaken instructions e)
  | fields {instructions : List Instruction} (described : Describes entries instructions)
      (symbols : (instructions.map fun i => symbol i.id).Nodup)
      (first : FirstFault (fun _ => Instruction.NoImmediate) instructions e)
  | key {instructions : List Instruction} (described : Describes entries instructions)
      (symbols : (instructions.map fun i => symbol i.id).Nodup)
      (rules : ∀ i ∈ instructions, ∃ rule, i.rule = .ok rule)
      (first : FirstFault Instruction.KeyTaken instructions e)

theorem Describes.map_id {entries : List (String × Entry)} {instructions : List Instruction}
    (described : Describes entries instructions) :
    instructions.map Instruction.id = entries.map Prod.fst := by
  induction described with
  | nil => rfl
  | cons accepted _ ih => rw [List.map_cons, List.map_cons, Instruction.id_of_ofEntry accepted, ih]

/-- Among distinct identifiers none is listed twice, so the first fault is a symbol that is taken. -/
theorem firstFault_numbering_iff {instructions : List Instruction}
    (distinct : (instructions.map Instruction.id).Nodup) :
    FirstFault Numbering.Fault (instructions.map Instruction.id) e ↔
      FirstFault Instruction.SymbolTaken instructions e := by
  rw [firstFault_map]
  refine firstFault_congr fun front i back split e => Instruction.numberingFault_iff fun listed => ?_
  rw [split, List.map_append, List.nodup_append] at distinct
  exact distinct.2.2 _ listed _ (List.mem_map.mpr ⟨i, List.mem_cons_self, rfl⟩) rfl

/-- A description has no table under either order of trials if its entries have a first defect, and
that is the error. It has one if its entries are instructions with distinct symbols, with rules, and
with no mask and literal bits in common. Building never misses the number of an identifier. -/
theorem ofDescription_firstDefect (order : TrialOrder) (description : Description) :
    (∀ e, Table.ofDescription order description = .error e ↔ FirstDefect description.entries e) ∧
    ((∃ t, Table.ofDescription order description = .ok t) ↔
      ∃ instructions, Describes description.entries instructions ∧ Table.Buildable instructions) ∧
    ∀ (instructions : List Instruction) (id : String),
      Table.ofInstructions order instructions ≠ .error (.malformed id .notEnumerated) := by
  -- A description lists an identifier once, so numbering stumbles over symbols only.
  have numbering {instructions : List Instruction} {e : Defect}
      (described : Describes description.entries instructions) :
      FirstFault Numbering.Fault (instructions.map Instruction.id) e ↔
        FirstFault Instruction.SymbolTaken instructions e :=
    firstFault_numbering_iff (described.map_id ▸ description.nodup)
  refine ⟨fun e => ?_, ?_, fun _ _ => Table.ofInstructions_ne_notEnumerated⟩
  · rw [Table.ofDescription, Table.ofEntries, bind_eq_error, mapM_eq_error_iff]
    simp only [mapM_eq_ok_iff, Table.ofInstructions_eq_error_iff]
    constructor
    · intro failed
      rcases failed with first | ⟨instructions, described, first | ⟨symbols, first | ⟨rules, first⟩⟩⟩
      · exact .entry first
      · exact .symbol described ((numbering described).mp first)
      · exact .fields described symbols first
      · exact .key described symbols rules first
    · intro defect
      cases defect with
      | entry first => exact .inl first
      | symbol described first => exact .inr ⟨_, described, .inl ((numbering described).mpr first)⟩
      | fields described symbols first => exact .inr ⟨_, described, .inr ⟨symbols, .inl first⟩⟩
      | key described symbols rules first =>
        exact .inr ⟨_, described, .inr ⟨symbols, .inr ⟨rules, first⟩⟩⟩
  · rw [Table.ofDescription, Table.ofEntries]
    simp only [bind_eq_ok, mapM_eq_ok_iff, ← @Table.exists_ofInstructions_iff order]
    constructor
    · intro built
      obtain ⟨t, instructions, described, built⟩ := built
      exact ⟨instructions, described, t, built⟩
    · intro described
      obtain ⟨instructions, described, t, built⟩ := described
      exact ⟨t, instructions, described, built⟩

end DecodeTables
