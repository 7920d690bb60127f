import DecodeTables.Artifact.Render
import DecodeTables.Proofs.Emitted.Arms
import DecodeTables.Proofs.Emitted.DispatchText

/-!
# Emitted dispatching decoders answer as their table does

The modules that are read off both texts of a table's decoder are run on a word, with a header that
does what it documents. A lambda builds the operands of the rule that it is made from
(`build?_ofArm`), one is found where a probe of the table succeeds (`DerivedFrom.map_some_find?`),
and control comes to the probes of an opcode from its case of the switch (`enter_of_mem`) as it does
from the tables.
-/

namespace DecodeTables

open Artifact Emitted

namespace Emitted

/-! ## Keys -/

/-- A key holds its mask in the upper half and the masked word in the lower one. -/
theorem keyOf_eq_iff {mask value mask' value' : Word} :
    KeyedArm.keyOf mask value = KeyedArm.keyOf mask' value' ↔ mask = mask' ∧ value = value' := by
  have lower (mask value : Word) : (KeyedArm.keyOf mask value).setWidth 32 = value := by
    refine BitVec.eq_of_getLsbD_eq fun k bound => ?_
    simp [KeyedArm.keyOf, bound]
  have upper (mask value : Word) : (KeyedArm.keyOf mask value >>> 32).setWidth 32 = mask := by
    refine BitVec.eq_of_getLsbD_eq fun k bound => ?_
    have inKey : 32 + k < 64 ∧ k < 64 := by omega
    simp [KeyedArm.keyOf, bound, inKey]
  constructor
  · intro same
    exact ⟨by rw [← upper mask value, same, upper], by rw [← lower mask value, same, lower]⟩
  · rintro ⟨rfl, rfl⟩
    rfl

/-! ## Lambdas -/

variable {h : BitHeader} {raw : Word} {a : Arm}

theorem lookup_registerField (name slot : String) (low : Option Nat) :
    (registerField slot low).lookup name =
      if name == slot then low.map fun low => .byte (low + 4) low else none := by
  cases low with
  | none => simp [registerField]
  | some low =>
    simp only [registerField, Option.map_some, Option.toList_some, List.lookup_cons,
      List.lookup_nil]
    cases name == slot <;> rfl

theorem lookup_immediate (name : String) (source : Option Source) :
    ((source.map fun source => ("imm", source)).toList : Initializers).lookup name =
      if name == "imm" then source else none := by
  cases source with
  | none => simp
  | some source =>
    simp only [Option.map_some, Option.toList_some, List.lookup_cons, List.lookup_nil]
    cases name == "imm" <;> rfl

/-- What each field of an arm is initialized with. -/
theorem lookup_ofArm (a : Arm) :
    (Initializers.ofArm a).lookup "raw" = some .word ∧
      (Initializers.ofArm a).lookup "id" = some (.item ("k" ++ a.symbol)) ∧
      ((Initializers.ofArm a).lookup "rs1" = a.rs1.map fun low => .byte (low + 4) low) ∧
      ((Initializers.ofArm a).lookup "rs2" = a.rs2.map fun low => .byte (low + 4) low) ∧
      ((Initializers.ofArm a).lookup "rd" = a.rd.map fun low => .byte (low + 4) low) ∧
      (Initializers.ofArm a).lookup "imm" = immediateSource? a.immediate := by
  simp [Initializers.ofArm, List.lookup_append, List.lookup_cons, lookup_registerField,
    lookup_immediate]

/-- The initializers of an arm come in the order of the fields. -/
theorem isSublist_ofArm (a : Arm) :
    ((Initializers.ofArm a).map Prod.fst).isSublist Initializers.declared = true := by
  have register (slot : String) (low : Option Nat) :
      (registerField slot low).map Prod.fst = if low.isSome then [slot] else [] := by
    cases low <;> rfl
  have immediate (source : Option Source) :
      (source.map fun source => ("imm", source)).toList.map Prod.fst =
        if source.isSome then ["imm"] else [] := by
    cases source <;> rfl
  simp only [Initializers.ofArm, List.map_append, List.map_cons, List.map_nil, register, immediate]
  cases a.rs1.isSome <;> cases a.rs2.isSome <;> cases a.rd.isSome <;>
    cases (immediateSource? a.immediate).isSome <;> decide

section

variable (documented : h.Documented)
include documented

theorem register?_eq {fields : Initializers} {slot : String} {low : Option Nat}
    (found : fields.lookup slot = low.map fun low => .byte (low + 4) low)
    (bound : ∀ bit ∈ low, bit + 4 < 32) :
    fields.register? h raw slot = some (low.map fun low => (raw.extractLsb' low 5).toNat) := by
  rw [Initializers.register?, found]
  cases low with
  | none => rfl
  | some low =>
    have width : low + 4 + 1 - low = 5 := by omega
    have value := documented.byte_eq (low + 4) low raw (Nat.le_add_right low 4) (bound low rfl)
      (by omega)
    rw [bitRange, width] at value
    exact congrArg (fun value => some (some value)) value

theorem immediate?_eq {fields : Initializers} {layout : Immediate}
    (found : fields.lookup "imm" = immediateSource? layout) :
    fields.immediate? h raw = some (layout.decode? raw) := by
  have fence : h.bits 31 20 raw = (raw.extractLsb' 20 12).toNat :=
    documented.bits_eq 31 20 raw (by decide) (by decide)
  rw [Initializers.immediate?, found]
  cases layout with
  | i => exact congrArg (fun value => some (some value)) (documented.i_imm raw)
  | s => exact congrArg (fun value => some (some value)) (documented.s_imm raw)
  | b => exact congrArg (fun value => some (some value)) (documented.b_imm raw)
  | u => exact congrArg (fun value => some (some value)) (documented.u_imm raw)
  | j => exact congrArg (fun value => some (some value)) (documented.j_imm raw)
  | fence => exact congrArg (fun value : Nat => some (some (value : Int))) fence
  | absent => rfl

/-- A lambda reads the registers of its arm, and the immediate of the arm's layout. -/
theorem build?_ofArm (bound : ∀ low ∈ [a.rs1, a.rs2, a.rd], ∀ bit ∈ low, bit + 4 < 32) (raw : Word) :
    (Initializers.ofArm a).build? h raw = some
      { raw
        item := "k" ++ a.symbol
        operands :=
          { rs1 := a.rs1.map fun low => (raw.extractLsb' low 5).toNat
            rs2 := a.rs2.map fun low => (raw.extractLsb' low 5).toNat
            rd := a.rd.map fun low => (raw.extractLsb' low 5).toNat
            imm := a.immediate.decode? raw } } := by
  obtain ⟨word, item, rs1, rs2, rd, imm⟩ := lookup_ofArm a
  obtain ⟨bound1, bound2, bound3, -⟩ := by simpa only [List.forall_mem_cons] using bound
  rw [Initializers.build?, word, item, register?_eq documented rs1 bound1,
    register?_eq documented rs2 bound2, register?_eq documented rd bound3,
    immediate?_eq documented imm, isSublist_ofArm]
  rfl

/-- The opcode is in the low bits of a word. -/
theorem bits_opcode (raw : Word) : h.bits 6 0 raw = raw.opcode := by
  have low : raw.opcode = raw.toNat % 2 ^ 7 := by
    rw [Word.opcode, Word.opcodeMask, BitVec.toNat_and, ← Nat.and_two_pow_sub_one_eq_mod]
    rfl
  rw [documented.bits_eq 6 0 raw (by decide) (by decide), low, bitRange, BitVec.extractLsb'_toNat,
    Nat.shiftRight_zero]

end

/-! ## Switches -/

variable {d : SwitchDecoder} {opcode : Nat} {s : Statement}

/-- A statement that probes masks. -/
def Statement.Probes : Statement → Prop
  | probe _ _ | probeEach _ => True
  | label _ | otherwise | leave | throwUnknownOpcode => False

theorem map_switchCases (d : SwitchDecoder) :
    (switchCases d).map Prod.fst = d.singles.map Prod.fst ++ d.trials.map Prod.fst := by
  rw [switchCases, List.map_append, List.map_map, List.map_map]
  rfl

theorem probes_of_mem (member : (opcode, s) ∈ switchCases d) : s.Probes := by
  rcases List.mem_append.mp member with single | trials
  · obtain ⟨e, -, same⟩ := List.mem_map.mp single
    cases same
    trivial
  · obtain ⟨e, -, same⟩ := List.mem_map.mp trials
    cases same
    trivial

theorem labels_ofDecoder (d : SwitchDecoder) :
    (SwitchModule.ofDecoder d).labels = (switchCases d).map Prod.fst := by
  have own : ∀ c ∈ switchCases d, (caseStatements c).filterMap Statement.label? = [c.1] := by
    rintro ⟨opcode, s⟩ member
    have probes := probes_of_mem member
    cases s with
    | probe | probeEach => rfl
    | label | otherwise | leave | throwUnknownOpcode => exact probes.elim
  rw [SwitchModule.labels, SwitchModule.ofDecoder, List.filterMap_append, List.filterMap_flatMap,
    List.flatMap_congr own, ← List.map_eq_flatMap]
  exact List.append_nil _

/-- The statements of a case are its own label and others that are no labels. -/
theorem ne_of_mem_caseStatements {c : Nat × Statement} (probes : c.2.Probes)
    (member : s ∈ caseStatements c) :
    s ≠ .otherwise ∧ ∀ opcode, opcode ≠ c.1 → s ≠ .label opcode := by
  obtain ⟨own, probe⟩ := c
  simp only [caseStatements, List.mem_cons, List.not_mem_nil, or_false] at member
  rcases member with rfl | rfl | rfl
  · exact ⟨by simp, fun opcode ne same => ne (Statement.label.inj same).symm⟩
  · cases s with
    | probe | probeEach => simp
    | label | otherwise | leave | throwUnknownOpcode => exact probes.elim
  · simp

/-- An opcode that has a case is decoded from its label on. -/
theorem enter_of_mem (distinct : ((switchCases d).map Prod.fst).Nodup)
    (member : (opcode, s) ∈ switchCases d) : ∃ later,
      (SwitchModule.ofDecoder d).enter opcode = .label opcode :: s :: .leave :: later := by
  obtain ⟨front, back, split⟩ := List.append_of_mem member
  have passed : ∀ x ∈ front.flatMap caseStatements, (x != .label opcode) = true := by
    intro x inside
    obtain ⟨c, listed, own⟩ := List.mem_flatMap.mp inside
    have probes : c.2.Probes := probes_of_mem (split ▸ List.mem_append_left _ listed)
    rw [split, List.map_append, List.map_cons, List.nodup_middle, List.nodup_cons] at distinct
    refine bne_iff_ne.mpr ((ne_of_mem_caseStatements probes own).2 opcode fun same => ?_)
    exact distinct.1 (List.mem_append_left _ (List.mem_map.mpr ⟨c, listed, same.symm⟩))
  have body : (SwitchModule.ofDecoder d).body = front.flatMap caseStatements ++
      (.label opcode :: s :: .leave :: (back.flatMap caseStatements ++
        [.otherwise, .throwUnknownOpcode])) := by
    rw [SwitchModule.ofDecoder, split, List.flatMap_append, List.flatMap_cons, List.append_assoc]
    rfl
  refine ⟨back.flatMap caseStatements ++ [.otherwise, .throwUnknownOpcode], ?_⟩
  rw [SwitchModule.enter, body, List.dropWhile_append_of_pos passed,
    List.dropWhile_cons_of_neg (by simp)]

/-- An opcode without case is decoded from the default on. -/
theorem enter_of_notMem (absent : opcode ∉ (switchCases d).map Prod.fst) :
    (SwitchModule.ofDecoder d).enter opcode = [.otherwise, .throwUnknownOpcode] := by
  have passed : ∀ x ∈ (switchCases d).flatMap caseStatements,
      (x != .label opcode) = true ∧ (x != .otherwise) = true := by
    intro x inside
    obtain ⟨c, listed, own⟩ := List.mem_flatMap.mp inside
    obtain ⟨other, label⟩ := ne_of_mem_caseStatements (probes_of_mem listed) own
    have ne : opcode ≠ c.1 := fun same => absent (List.mem_map.mpr ⟨c, listed, same.symm⟩)
    exact ⟨bne_iff_ne.mpr (label opcode ne), bne_iff_ne.mpr other⟩
  rw [SwitchModule.enter, SwitchModule.ofDecoder,
    List.dropWhile_append_of_pos fun x inside => (passed x inside).1,
    List.dropWhile_append_of_pos fun x inside => (passed x inside).2]
  rfl

/-- A case is left behind its probes, whatever stands behind it. -/
theorem runAll_case (arms : List KeyedArm) (word : Unread) (later : List Statement) :
    Statement.runAll arms word (.label opcode :: s :: .leave :: later) =
      match s.run arms word with
      | .next => .leave
      | exit => exit := by
  have label : Statement.runAll arms word (.label opcode :: s :: .leave :: later) =
      Statement.runAll arms word (s :: .leave :: later) := rfl
  rw [label, Statement.runAll]
  cases s.run arms word <;> rfl

end Emitted

/-! ## The decoders of a table -/

/-- What a lambda has to initialize for a layout. -/
def Immediate.initializers : Immediate → Initializers
  | .i => [("imm", .call "decode_i_imm")]
  | .s => [("imm", .call "decode_s_imm")]
  | .b => [("imm", .call "decode_b_imm")]
  | .u => [("imm", .call "decode_u_imm")]
  | .j => [("imm", .call "decode_j_imm")]
  | .fence => [("imm", .bits 31 20)]
  | .absent => []

/-- What a lambda has to initialize for a rule: the word, the item of its instruction, the registers
of the rule from their bits, and the immediate of its layout. -/
def Rule.initializers (rule : Rule) (item : String) : Initializers :=
  let register (used : Bool) (slot : String) (hi lo : Nat) : Initializers :=
    if used then [(slot, .byte hi lo)] else []
  [("raw", .word), ("id", .item item)] ++ register rule.rs1 "rs1" 19 15 ++
    register rule.rs2 "rs2" 24 20 ++ register rule.rd "rd" 11 7 ++ rule.immediate.initializers

/-- The modules that the decoders of a table are written as. -/
def Table.switchModule (t : Table) : SwitchModule := .ofDecoder (.ofTable t)

def Table.flatModule (t : Table) : FlatModule := .ofDecoder (.ofTable t)

/-- What a module builds for a word that a table decodes. -/
def Emitted.Built.ofDecoded (t : Table) (d : Decoded) : Built where
  raw := d.raw
  item := "k" ++ symbol (t.name d.ordinal)
  operands := d.operands

theorem initializers_ofMember (i : Instruction) (rule : Rule) :
    Initializers.ofArm (.ofMember i rule) = rule.initializers ("k" ++ symbol i.id) := by
  obtain ⟨rs1, rs2, rd, immediate⟩ := rule
  cases rs1 <;> cases rs2 <;> cases rd <;> cases immediate <;> rfl

theorem legibleArm_ofMember (i : Instruction) (rule : Rule) : LegibleArm (.ofMember i rule) where
  isWord := isWord_symbol i.id_ne
  register_lt := by
    have bound {low : Nat} (used : Bool) (inWord : low + 4 < 32) :
        ∀ bit ∈ (if used then some low else none), bit + 4 < 32 := by
      cases used with
      | false => exact nofun
      | true => exact fun bit own => Option.some.inj own ▸ inWord
    simp only [List.forall_mem_cons]
    exact ⟨bound rule.rs1 (by decide), bound rule.rs2 (by decide), bound rule.rd (by decide), nofun⟩

/-- A lambda builds the operands that its rule reads. -/
theorem build?_ofMember {h : BitHeader} (documented : h.Documented) (i : Instruction) (rule : Rule)
    (raw : Word) : (Initializers.ofArm (.ofMember i rule)).build? h raw =
      some { raw, item := "k" ++ symbol i.id, operands := rule.extract raw } := by
  have built := build?_ofArm documented (legibleArm_ofMember i rule).register_lt raw
  have register (used : Bool) (low : Nat) :
      ((if used then some low else none).map fun low => (raw.extractLsb' low 5).toNat) =
        if used then some (raw.extractLsb' low 5).toNat else none := by
    cases used <;> rfl
  rw [built]
  simp only [Arm.ofMember, register]
  rfl

theorem single?_eq_some {opcode : Nat} {masks : List Word} {e : Nat × Word} :
    SwitchDecoder.single? opcode masks = some e ↔ e.1 = opcode ∧ masks = [e.2] := by
  unfold SwitchDecoder.single?
  split
  · simp [Prod.ext_iff, eq_comm]
  · rename_i several
    exact ⟨nofun, fun sole => absurd sole.2 (several e.2)⟩

namespace Table.DerivedFrom

variable {order : TrialOrder} {instructions : List Instruction} {t : Table} {raw mask : Word}
  {opcode : Nat} {s : Statement} (table : DerivedFrom order instructions t)
include table

/-! ### Probing -/

theorem legibleArm_of_mem {a : Arm} (member : a ∈ t.arms) : LegibleArm a := by
  obtain ⟨n, i, rule, -, -, rfl⟩ := table.mem_arms.mp member
  exact legibleArm_ofMember i rule

theorem getElem?_lambdas {n : Nat} {i : Instruction} {rule : Rule}
    (listed : instructions[n]? = some i) (derived : Rule.ofFields? i.fields = some rule) :
    (t.arms.map KeyedArm.ofArm)[n]? = some (.ofArm (.ofMember i rule)) := by
  rw [List.getElem?_map, table.getElem?_arms listed derived]
  rfl

/-- A lambda is found where a probe of the table succeeds, at the ordinal that the probe decodes. -/
theorem map_some_find? (raw mask : Word) :
    (KeyedArm.find? (t.arms.map .ofArm) mask (raw &&& mask)).map some =
      (t.probes.probe raw mask).map fun d => (t.arms.map KeyedArm.ofArm)[d.ordinal]? := by
  have found : KeyedArm.find? (t.arms.map KeyedArm.ofArm) mask (raw &&& mask) =
      (t.arms.find? fun a => a.mask == mask && a.value == raw &&& mask).map .ofArm := by
    rw [KeyedArm.find?, List.find?_map]
    congr 2
    funext a
    rw [Bool.eq_iff_iff, Function.comp_apply, beq_iff_eq, Bool.and_eq_true, beq_iff_eq, beq_iff_eq]
    exact keyOf_eq_iff
  rw [found]
  cases probed : t.probes.probe raw mask with
  | none =>
    rw [table.find?_arm_eq_none probed]
    rfl
  | some d =>
    obtain ⟨n, i, rule, listed, derived, rfl, carried, rfl⟩ := table.probe_eq_some_iff.mp probed
    rw [table.find?_arm listed derived carried]
    exact congrArg some (table.getElem?_lambdas listed derived).symm

/-- So are the lambdas that are found under the first of several masks. -/
theorem map_some_findSome? (raw : Word) (masks : List Word) :
    (masks.findSome? fun mask => KeyedArm.find? (t.arms.map .ofArm) mask (raw &&& mask)).map some =
      (masks.findSome? (t.probes.probe raw)).map fun d =>
        (t.arms.map KeyedArm.ofArm)[d.ordinal]? := by
  simp only [List.map_findSome?, Function.comp_def, table.map_some_find?]

/-- Where a decoder ends in the lambda at the ordinal that the table decodes, its answer is that of the
table: a lambda builds the operands of the instruction that it stands for. -/
theorem answer?_eq {h : BitHeader} (documented : h.Documented) {result : Except Undecoded KeyedArm}
    (same : result.map some =
      (t.decode raw).map fun d => (t.arms.map KeyedArm.ofArm)[d.ordinal]?) :
    KeyedArm.answer? h raw result = some ((t.decode raw).map (.ofDecoded t)) := by
  cases decoded : t.decode raw with
  | error e =>
    rw [decoded] at same
    cases result with
    | error e' =>
      cases same
      rfl
    | ok a => cases same
  | ok d =>
    obtain ⟨i, rule, wins, derived, whole⟩ := table.decode_eq_ok_iff.mp decoded
    rw [decoded, Except.map, table.getElem?_lambdas wins.listed derived] at same
    cases result with
    | error e => cases same
    | ok a =>
      cases same
      have built := build?_ofMember documented i rule raw
      rw [← table.name_eq wins.listed] at built
      rw [whole]
      exact congrArg (Option.map Except.ok) built

/-! ### Cases -/

theorem trials_eq : (SwitchDecoder.ofTable t).trials =
    (Plan.build order (MaskGroups.ofInstructions instructions)).trials :=
  congrArg Plan.trials table.plan_eq

theorem mem_singles : (opcode, mask) ∈ (SwitchDecoder.ofTable t).singles ↔
    masksOf instructions opcode = [mask] := by
  rw [SwitchDecoder.ofTable, table.groups_eq, List.mem_filterMap]
  constructor
  · rintro ⟨⟨place, masks⟩, used, sole⟩
    obtain ⟨-, rfl⟩ := MaskGroups.mem_used.mp used
    obtain ⟨rfl, only⟩ := single?_eq_some.mp sole
    exact only
  · intro only
    exact ⟨(opcode, [mask]), MaskGroups.mem_used.mpr ⟨List.cons_ne_nil _ _, only.symm⟩, rfl⟩

/-- The cases are the opcodes that are used, each with a statement that probes its masks in trial
order. -/
theorem mem_switchCases : (opcode, s) ∈ switchCases (.ofTable t) ↔
    (∃ mask, masksOf instructions opcode = [mask] ∧ s = .probe mask mask) ∨
      (1 < (masksOf instructions opcode).length ∧
        s = .probeEach (order.sort (masksOf instructions opcode))) := by
  rw [switchCases, List.mem_append, List.mem_map, List.mem_map, table.trials_eq]
  constructor
  · rintro (⟨⟨place, mask⟩, single, same⟩ | ⟨⟨place, masks⟩, trial, same⟩)
    · cases same
      exact .inl ⟨mask, table.mem_singles.mp single, rfl⟩
    · cases same
      obtain ⟨several, rfl⟩ := Plan.mem_trials.mp trial
      exact .inr ⟨several, rfl⟩
  · rintro (⟨mask, only, rfl⟩ | ⟨several, rfl⟩)
    · exact .inl ⟨(opcode, mask), table.mem_singles.mpr only, rfl⟩
    · exact .inr ⟨(opcode, _), Plan.mem_trials.mpr ⟨several, rfl⟩, rfl⟩

/-- Singles and trials each come in ascending order, and no opcode is among both. -/
theorem switchOpcodes_nodup : ((switchCases (.ofTable t)).map Prod.fst).Nodup := by
  have distinct {α : Type} {items : List (Nat × α)}
      (ascending : items.Pairwise fun a b => a.1 < b.1) : (items.map Prod.fst).Nodup :=
    List.pairwise_map.mpr (ascending.imp Nat.ne_of_lt)
  have singles : (SwitchDecoder.ofTable t).singles.Pairwise fun a b => a.1 < b.1 := by
    refine t.groups.used_pairwise_lt.filterMap _ fun a b less c kept c' kept' => ?_
    rwa [(single?_eq_some.mp kept).1, (single?_eq_some.mp kept').1]
  have trials : (SwitchDecoder.ofTable t).trials.Pairwise fun a b => a.1 < b.1 := by
    rw [table.trials_eq]
    exact Plan.trials_pairwise_lt order _
  rw [map_switchCases, List.nodup_append]
  refine ⟨distinct singles, distinct trials, ?_⟩
  rintro opcode inSingles _ inTrials rfl
  obtain ⟨⟨_, mask⟩, single, rfl⟩ := List.mem_map.mp inSingles
  obtain ⟨⟨_, masks⟩, several, rfl⟩ := List.mem_map.mp inTrials
  rw [table.trials_eq, Plan.mem_trials, table.mem_singles.mp single] at several
  exact absurd several.1 (Nat.lt_irrefl 1)

/-- Case labels are the opcodes that are used. -/
theorem mem_switchOpcodes : opcode ∈ (switchCases (.ofTable t)).map Prod.fst ↔
    masksOf instructions opcode ≠ [] := by
  simp only [List.mem_map, Prod.exists, table.mem_switchCases, exists_and_right, exists_eq_right]
  match masksOf instructions opcode with
  | [] => simp
  | [mask] => simp
  | _ :: _ :: _ => simp

/-- The statement of a case looks lambdas up under the masks of its opcode in trial order. -/
theorem run_of_mem (member : (opcode, s) ∈ switchCases (.ofTable t)) (arms : List KeyedArm)
    (word : Unread) : s.run arms word = Statement.run.found
      ((order.sort (masksOf instructions opcode)).findSome? fun mask =>
        KeyedArm.find? arms mask (word.raw &&& mask)) := by
  rcases table.mem_switchCases.mp member with ⟨mask, only, rfl⟩ | ⟨-, rfl⟩
  · rw [only, TrialOrder.sort_singleton, List.findSome?_singleton]
    rfl
  · rfl

/-! ### Dispatching -/

/-- The decoder with a switch ends in the lambda at the ordinal that the table decodes. -/
theorem dispatch_switchModule {h : BitHeader} (documented : h.Documented) (raw : Word) :
    (t.switchModule.dispatch h raw).map some =
      (t.decode raw).map fun d => t.switchModule.arms[d.ordinal]? := by
  have opcode : h.bits t.switchModule.opcode.1 t.switchModule.opcode.2 raw = raw.opcode :=
    bits_opcode documented raw
  unfold SwitchModule.dispatch
  dsimp only
  rw [opcode, table.decode_eq]
  by_cases unused : masksOf instructions raw.opcode = []
  · have absent : raw.opcode ∉ (switchCases (.ofTable t)).map Prod.fst := by
      rw [table.mem_switchOpcodes]
      exact not_not.mpr unused
    rw [if_pos unused, Table.switchModule, enter_of_notMem absent]
    rfl
  · obtain ⟨⟨_, s⟩, member, rfl⟩ := List.mem_map.mp (table.mem_switchOpcodes.mpr unused)
    obtain ⟨later, entered⟩ := enter_of_mem table.switchOpcodes_nodup member
    have found := table.map_some_findSome? raw
      (order.sort (masksOf instructions raw.opcode))
    have arms : t.switchModule.arms = t.arms.map .ofArm := rfl
    rw [if_neg unused, show t.switchModule.enter raw.opcode = _ from entered, runAll_case,
      table.run_of_mem member, arms]
    dsimp only
    rcases none_or_some_of_map found with ⟨found, probed⟩ | ⟨a, d, found, probed, same⟩
    · rw [found, probed]
      rfl
    · rw [found, probed]
      exact congrArg Except.ok same

/-- The decoder with tables ends in the lambda at the ordinal that the table decodes. -/
theorem dispatch_flatModule {h : BitHeader} (documented : h.Documented) (raw : Word) :
    (t.flatModule.dispatch h raw).map (Except.map some) =
      some ((t.decode raw).map fun d => t.flatModule.arms[d.ordinal]?) := by
  have opcode : h.bits t.flatModule.opcode.1 t.flatModule.opcode.2 raw = raw.opcode :=
    bits_opcode documented raw
  have entry : t.flatModule.masks[raw.opcode]? = some (t.plan.maskTable[raw.opcode]?.getD 0) :=
    t.getElem?_maskTable raw
  have trials : t.flatModule.trials = t.plan.trials := rfl
  have arms : t.flatModule.arms = t.arms.map .ofArm := rfl
  unfold FlatModule.dispatch Table.decode Plan.dispatch
  dsimp only
  rw [opcode, entry, trials, arms, lookup_eq_find?, Option.bind_eq_bind, Option.bind_some]
  by_cases zero : t.plan.maskTable[raw.opcode]?.getD 0 = 0
  · rw [if_neg (not_not.mpr zero), if_neg (not_not.mpr zero)]
    cases t.plan.trials.find? fun e => e.1 == raw.opcode with
    | none => rfl
    | some e =>
      rw [Option.map_some]
      dsimp only
      rcases none_or_some_of_map (table.map_some_findSome? raw e.2) with
        ⟨found, probed⟩ | ⟨a, d, found, probed, same⟩
      · rw [found, probed]
        rfl
      · rw [found, probed]
        exact congrArg (fun a => some (Except.ok a)) same
  · rw [if_pos zero, if_pos zero]
    dsimp only
    rcases none_or_some_of_map (table.map_some_find? raw _) with
      ⟨found, probed⟩ | ⟨a, d, found, probed, same⟩
    · rw [found, probed]
      rfl
    · rw [found, probed]
      exact congrArg (fun a => some (Except.ok a)) same

/-- The decoder with a switch decodes a word as the table does. -/
theorem decode_switchModule {h : BitHeader} (documented : h.Documented) (raw : Word) :
    t.switchModule.decode h raw = some ((t.decode raw).map (.ofDecoded t)) :=
  table.answer?_eq documented (table.dispatch_switchModule documented raw)

/-- The decoder with tables decodes a word as the table does. -/
theorem decode_flatModule {h : BitHeader} (documented : h.Documented) (raw : Word) :
    t.flatModule.decode h raw = some ((t.decode raw).map (.ofDecoded t)) := by
  obtain ⟨result, dispatched, same⟩ :=
    Option.map_eq_some_iff.mp (table.dispatch_flatModule documented raw)
  rw [FlatModule.decode, dispatched, Option.bind_some]
  exact table.answer?_eq documented same

/-! ### Reading -/

theorem legibleSwitch : LegibleSwitch (.ofTable t) where
  single_lt := by
    rintro ⟨opcode, mask⟩ member
    have used : masksOf instructions opcode ≠ [] := by
      rw [table.mem_singles.mp member]
      exact List.cons_ne_nil _ _
    exact Nat.lt_trans (lt_of_masksOf_ne_nil used) (by decide)
  trial_lt := table.trial_lt
  several := by
    rintro ⟨opcode, masks⟩ member
    rw [table.trials_eq, Plan.mem_trials] at member
    obtain ⟨several, rfl⟩ := member
    refine List.ne_nil_of_length_pos ?_
    rw [(TrialOrder.sort_perm _ _).length_eq]
    exact Nat.lt_of_succ_lt several
  arm := fun _ => table.legibleArm_of_mem

theorem legibleFlat : LegibleFlat (.ofTable t) where
  length_masks := Vector.length_toList
  trial_lt := table.trial_lt
  arm := fun _ => table.legibleArm_of_mem

/-- The keys of the lambdas are different numbers. -/
theorem keyedKeys_nodup : ((t.arms.map KeyedArm.ofArm).map KeyedArm.key).Nodup := by
  have keys : (t.arms.map KeyedArm.ofArm).map KeyedArm.key =
      (t.arms.map fun a => (a.mask, a.value)).map fun e => KeyedArm.keyOf e.1 e.2 := by
    rw [List.map_map, List.map_map]
    rfl
  rw [keys]
  exact table.keys_nodup.map fun _ _ same => Prod.ext_iff.mpr (keyOf_eq_iff.mp same)

/-- The lambda of an instruction is the one with its ordinal. -/
theorem getElem?_keyedArms {n : Nat} {i : Instruction} {rule : Rule}
    (listed : instructions[n]? = some i) (derived : Rule.ofFields? i.fields = some rule) :
    (t.arms.map KeyedArm.ofArm)[n]? =
      some ⟨i.mask, i.value, rule.initializers ("k" ++ symbol i.id)⟩ := by
  rw [table.getElem?_lambdas listed derived, ← initializers_ofMember]
  rfl

end Table.DerivedFrom

/-- The sources of both shapes of decoder are modules that end in the lambda at the ordinal that the
table decodes, or in the same error. The lambda of an instruction sets the registers of its rule and
the immediate of its layout, and nothing else, and runs to an end on every word that comes to it, with
the operands that the table reads. The labels of the switch are the opcodes that are used, each once,
and the keys of lambdas are different. -/
theorem render_dispatch_decodes {order : TrialOrder} {instructions : List Instruction} {t : Table}
    (built : Table.ofInstructions order instructions = .ok t) (options : Options) {h : BitHeader}
    (documented : h.Documented) :
    ∃ switch flat s f,
      render t .decoder { options with target := .cpp, shape := .switch } = .ok switch ∧
      render t .decoder { options with target := .cpp, shape := .flat } = .ok flat ∧
      SwitchModule.read? options.space switch.text = some s ∧
      FlatModule.read? options.space flat.text = some f ∧
      s.labels.Nodup ∧ (∀ opcode, opcode ∈ s.labels ↔ ∃ i ∈ instructions, i.opcode = opcode) ∧
      (s.arms.map KeyedArm.key).Nodup ∧ (f.arms.map KeyedArm.key).Nodup ∧
      (∀ arms ∈ [s.arms, f.arms], arms.length = instructions.length ∧
        ∀ (n : Nat) (i : Instruction), instructions[n]? = some i → ∃ rule, i.rule = .ok rule ∧
          arms[n]? = some ⟨i.mask, i.value, rule.initializers ("k" ++ symbol i.id)⟩) ∧
      ∀ raw,
        (s.dispatch h raw).map some = (t.decode raw).map (fun d => s.arms[d.ordinal]?) ∧
        (f.dispatch h raw).map (Except.map some) =
          some ((t.decode raw).map fun d => f.arms[d.ordinal]?) ∧
        s.decode h raw = some ((t.decode raw).map (.ofDecoded t)) ∧
        f.decode h raw = some ((t.decode raw).map (.ofDecoded t)) := by
  have table := Table.derivedFrom_of_ofInstructions built
  have labels : t.switchModule.labels = (switchCases (.ofTable t)).map Prod.fst :=
    labels_ofDecoder _
  have lambdas : (t.arms.map KeyedArm.ofArm).length = instructions.length ∧
      ∀ (n : Nat) (i : Instruction), instructions[n]? = some i → ∃ rule, i.rule = .ok rule ∧
        (t.arms.map KeyedArm.ofArm)[n]? =
          some ⟨i.mask, i.value, rule.initializers ("k" ++ symbol i.id)⟩ := by
    refine ⟨by rw [List.length_map, table.length_arms], fun n i listed => ?_⟩
    obtain ⟨rule, derived, -⟩ := table.exists_rule listed
    exact ⟨rule, Instruction.rule_eq_ok.mpr derived, table.getElem?_keyedArms listed derived⟩
  refine ⟨_, _, t.switchModule, t.flatModule, rfl, rfl, ?_, ?_, ?_, fun opcode => ?_,
    table.keyedKeys_nodup, table.keyedKeys_nodup, ?_, fun raw =>
      ⟨table.dispatch_switchModule documented raw, table.dispatch_flatModule documented raw,
        table.decode_switchModule documented raw, table.decode_flatModule documented raw⟩⟩
  · dsimp only [cppDecoderLines]
    exact read?_switchLines table.legibleSwitch _
  · dsimp only [cppDecoderLines]
    exact read?_flatLines table.legibleFlat _
  · rw [labels]
    exact table.switchOpcodes_nodup
  · rw [labels, table.mem_switchOpcodes, Ne, masksOf_eq_nil_iff]
    simp only [ne_eq, not_forall, not_not, exists_prop]
  · rw [List.forall_mem_cons, List.forall_mem_singleton]
    exact ⟨lambdas, lambdas⟩

/-- Both shapes try the masks of an opcode in the order of the table, and read a branch with its
registers and its offset. -/
theorem render_dispatch_decodes_overlapping : ∃ t switch flat s f,
    Table.ofInstructions .specificity Overlapping.instructions = .ok t ∧
      render t .decoder { shape := .switch } = .ok switch ∧
      render t .decoder { shape := .flat } = .ok flat ∧
      SwitchModule.read? "yarvs" switch.text = some s ∧
      FlatModule.read? "yarvs" flat.text = some f ∧
      ∀ decode ∈ [s.decode .ofRanges, f.decode .ofRanges],
        decode 0x73 = some (.ok { raw := 0x73, item := "kECALL", operands := {} }) ∧
        decode 0xfe418ce3 = some (.ok
          { raw := 0xfe418ce3, item := "kBEQ"
            operands := { rs1 := some 3, rs2 := some 4, imm := some (-8) } }) := by
  obtain ⟨t, built⟩ := Overlapping.exists_table
  have table := Table.derivedFrom_of_ofInstructions built
  obtain ⟨switch, flat, s, f, rendered, rendered', read, read', -, -, -, -, -, decodes⟩ :=
    render_dispatch_decodes built {} BitHeader.documented_ofRanges
  have symbols : "k" ++ symbol Overlapping.ecall.id = "kECALL" ∧
      "k" ++ symbol Overlapping.beq.id = "kBEQ" := by decide +kernel
  have ecall : (t.decode 0x73).map (Built.ofDecoded t) = .ok ⟨0x73, "kECALL", {}⟩ := by
    rw [Overlapping.decode_ecall table, ← symbols.1, ← table.name_eq Overlapping.wins_ecall.listed]
    rfl
  have beq : (t.decode 0xfe418ce3).map (Built.ofDecoded t) =
      .ok ⟨0xfe418ce3, "kBEQ", { rs1 := some 3, rs2 := some 4, imm := some (-8) }⟩ := by
    rw [Overlapping.decode_beq table, ← symbols.2, ← table.name_eq Overlapping.wins_beq.listed]
    rfl
  refine ⟨t, switch, flat, s, f, built, rendered, rendered', read, read', ?_⟩
  obtain ⟨-, -, switch_ecall, flat_ecall⟩ := decodes 0x73
  obtain ⟨-, -, switch_beq, flat_beq⟩ := decodes 0xfe418ce3
  rw [List.forall_mem_cons, List.forall_mem_singleton, switch_ecall, flat_ecall, switch_beq,
    flat_beq, ecall, beq]
  exact ⟨⟨rfl, rfl⟩, rfl, rfl⟩

end DecodeTables
