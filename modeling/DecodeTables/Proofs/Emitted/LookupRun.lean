import DecodeTables.Artifact.Render
import DecodeTables.Proofs.Emitted.Arms
import DecodeTables.Proofs.Emitted.LookupText

/-!
# An emitted lookup decoder answers as its table does

The module that is read off the text of a table's decoder is run on a word. Its register closure and
its functions compute the operands (`registerAt_eq`, `immediate_eq`), an arm is taken for the row
that a probe of the table finds (`DerivedFrom.lookup_eq`), and the masks are tried as the plan of the
table dispatches them (`DerivedFrom.decode_eq_map`).
-/

namespace DecodeTables

open Artifact Emitted

/-! ## Functions -/

namespace Emitted

/-- A name that one function has calls that function. -/
theorem call_eq {functions : List Function} {f : Function}
    (distinct : (functions.map Function.name).Nodup) (member : f ∈ functions) (depth : Nat)
    (arguments : List Value) : Function.call functions (depth + 1) f.name arguments =
      f.run? (Function.call functions depth) arguments := by
  have found : functions.find? (fun g => g.name == f.name) = some f :=
    find?_eq_some_of_unique member (beq_self_eq_true _) fun g listed same =>
      List.inj_on_of_nodup_map distinct listed member (eq_of_beq same)
  rw [Function.call, found]
  rfl

theorem immediateFunction_injective : Function.Injective immediateFunction :=
  Immediate.injective_of_nodup (by decide +kernel)

theorem immediateFunction_ne_sext (layout : Immediate) : immediateFunction layout ≠ "sext" := by
  cases layout <;> decide +kernel

variable {d : LookupDecoder} {layout : Immediate} {f : Formula} {raw : Word}

theorem names_nodup (layouts : (d.formulas.map Prod.fst).Nodup) :
    ((LookupModule.ofDecoder d).functions.map Function.name).Nodup := by
  have formulas : (d.formulas.map fun e => immediateFunction e.1).Nodup := by
    have mapped := layouts.map immediateFunction_injective
    rwa [List.map_map] at mapped
  have names : (LookupModule.ofDecoder d).functions.map Function.name =
      (if d.signed then ["sext"] else []) ++ d.formulas.map fun e => immediateFunction e.1 := by
    rw [LookupModule.ofDecoder, List.map_append, List.map_map]
    cases d.signed <;> rfl
  rw [names, List.nodup_append]
  refine ⟨by split <;> simp, formulas, fun name sign other formula same => ?_⟩
  obtain ⟨e, -, rfl⟩ := List.mem_map.mp formula
  split at sign
  · exact immediateFunction_ne_sext e.1 (same.symm.trans (List.mem_singleton.mp sign))
  · exact List.not_mem_nil sign

/-- A function that calls `sext` stands behind it. -/
theorem functions_of_signed (member : (layout, f) ∈ d.formulas) (signed : f.signed.isSome = true) :
    (LookupModule.ofDecoder d).functions =
      signFunction :: d.formulas.map fun e => formulaFunction e.1 e.2 := by
  have needed : d.signed = true := List.any_eq_true.mpr ⟨_, member, signed⟩
  rw [LookupModule.ofDecoder, if_pos needed, List.singleton_append]

/-- The function of a layout answers the value of its formula. -/
theorem immediate_eq (legible : Legible d) (layouts : (d.formulas.map Prod.fst).Nodup)
    (member : (layout, f) ∈ d.formulas) :
    (LookupModule.ofDecoder d).immediate raw (immediateFunction layout) = some (f.eval raw) := by
  have distinct := names_nodup layouts
  have listed : formulaFunction layout f ∈ (LookupModule.ofDecoder d).functions :=
    List.mem_append_right _ (List.mem_map.mpr ⟨_, member, rfl⟩)
  obtain ⟨depth, length⟩ := Nat.exists_eq_add_of_lt (List.length_pos_of_mem listed)
  rw [Nat.zero_add] at length
  have sign (signed : f.signed.isSome = true) (arguments : List Value) : ∃ calls,
      Function.call (LookupModule.ofDecoder d).functions depth "sext" arguments =
        signFunction.run? calls arguments := by
    have functions := functions_of_signed member signed
    have several := List.length_pos_of_mem member
    have first : signFunction ∈ (LookupModule.ofDecoder d).functions := by
      rw [functions]
      exact List.mem_cons_self
    obtain ⟨less, rfl⟩ : ∃ less, depth = less + 1 := by
      refine Nat.exists_eq_succ_of_ne_zero ?_
      rw [functions, List.length_cons, List.length_map] at length
      omega
    exact ⟨_, call_eq distinct first less arguments⟩
  obtain ⟨value, computed, agrees⟩ :=
    run?_formulaFunction (legible.formula?_eq _ member) sign
  have answer : (LookupModule.ofDecoder d).call (immediateFunction layout) [.u32 raw] =
      some (.i64 value) := by
    rw [LookupModule.call, length]
    exact (call_eq distinct listed depth _).trans computed
  rw [LookupModule.immediate, answer, ← agrees]
  rfl

/-! ## Bits of the word -/

theorem toNat_ofInt_8 (w : Word) : (BitVec.ofInt 8 (Value.u32 w).toInt).toNat = w.toNat % 256 := by
  rw [Value.toInt, BitVec.ofInt_natCast, BitVec.toNat_ofNat]

/-- The closure for registers reads the slot at a shift. -/
theorem registerAt_eq {shift : Nat} (below : shift < 32) :
    (LookupModule.ofDecoder d).registerAt raw shift = some (raw.extractLsb' shift 5).toNat := by
  have typed : Value.ofInt? .u32 shift = some (.u32 (BitVec.ofNat 32 shift)) :=
    ofInt?_u32 (by omega)
  have shifted : (Expr.binary .shr (.name "raw") (.name "shift")).eval
      (LookupModule.ofDecoder d).call
      [("shift", .u32 (BitVec.ofNat 32 shift)), ("raw", .u32 raw)] =
        some (.u32 (raw >>> shift)) := by
    rw [eval_binary rfl rfl, Operator.compute?, toNat?_toInt_u32 (by omega), Option.bind_some]
    exact if_pos below
  have five : (raw >>> shift &&& 0x1f).toNat % 256 = (raw.extractLsb' shift 5).toNat := by
    have masked : (raw >>> shift &&& 0x1f).toNat = raw.toNat >>> shift % 2 ^ 5 := by
      rw [BitVec.toNat_and, BitVec.toNat_ushiftRight, ← Nat.and_two_pow_sub_one_eq_mod]
      rfl
    rw [masked, BitVec.extractLsb'_toNat]
    omega
  have value := eval_masked shifted (some 0x1f)
  rw [LookupModule.registerAt, typed]
  show ((Expr.cast (masked (some 0x1f) _) .u8).eval _ _).bind _ = _
  rw [Expr.eval, value, ← five, ← toNat_ofInt_8]
  rfl

/-- The opcode of a word as a module computes it. -/
theorem eval_opcodeExpr (raw : Word) (calls : String → List Value → Option Value) :
    ∃ opcode : BitVec 8, opcodeExpr.eval calls [("raw", .u32 raw)] = some (.u8 opcode) ∧
      opcode.toNat = raw.opcode := by
  have word : (Expr.name "raw").eval calls [("raw", .u32 raw)] = some (.u32 raw) := rfl
  have value := eval_masked word (some 0x7f)
  refine ⟨BitVec.ofInt 8 (Value.u32 (raw &&& 0x7f)).toInt, ?_, ?_⟩
  · show (Expr.cast (masked (some 0x7f) _) .u8).eval _ _ = _
    rw [Expr.eval, value]
    rfl
  · have bound : raw.opcode < 256 := Nat.lt_trans (Word.opcode_lt raw) (by decide)
    rw [toNat_ofInt_8]
    exact Nat.mod_eq_of_lt bound

/-! ## Arms -/

/-- An arm computes the operands of the rule that it is made from. -/
theorem operands_ofMember (legible : Legible d) (layouts : (d.formulas.map Prod.fst).Nodup)
    {i : Instruction} {rule : Rule}
    (used : ∀ f, formula? rule.immediate = some f → (rule.immediate, f) ∈ d.formulas) :
    (LookupModule.ofDecoder d).operands raw (.ofArm (.ofMember i rule)) =
      some (rule.extract raw) := by
  have slot (taken : Bool) {shift : Nat} (below : shift < 32) :
      (if taken then some shift else none).mapM ((LookupModule.ofDecoder d).registerAt raw) =
        some (if taken then some (raw.extractLsb' shift 5).toNat else none) := by
    cases taken with
    | false => rfl
    | true => exact congrArg (Option.map some) (registerAt_eq below)
  have immediate : (function? rule.immediate).mapM ((LookupModule.ofDecoder d).immediate raw) =
      some (rule.immediate.decode? raw) := by
    rw [function?]
    cases chosen : formula? rule.immediate with
    | none =>
      have absent : rule.immediate = .absent := by
        cases layout : rule.immediate <;> rw [layout] at chosen <;> first | rfl | cases chosen
      rw [absent]
      rfl
    | some f =>
      rw [eval_formula? chosen]
      exact congrArg (Option.map some) (immediate_eq legible layouts (used f chosen))
  rw [LookupModule.operands]
  simp only [ModuleArm.ofArm, Arm.ofMember]
  rw [slot rule.rs1 (by decide), slot rule.rs2 (by decide), slot rule.rd (by decide), immediate]
  rfl

/-! ## Calls -/

theorem called_signFunction : signFunction.called = [] := rfl

theorem called_formulaFunction (chosen : formula? layout = some f) :
    (formulaFunction layout f).called = if f.signed.isSome then ["sext"] else [] := by
  cases layout <;> cases chosen <;> rfl

/-- What is called is defined. -/
theorem mem_names_of_called (legible : Legible d)
    (used : ∀ a ∈ d.arms, ∀ f, formula? a.immediate = some f → (a.immediate, f) ∈ d.formulas)
    {name : String} (called : name ∈ (LookupModule.ofDecoder d).called) :
    name ∈ (LookupModule.ofDecoder d).functions.map Function.name := by
  have expressions : registerExpr.called ++ opcodeExpr.called = [] := rfl
  rw [LookupModule.called, List.append_assoc] at called
  rcases List.mem_append.mp called with called | called
  · rcases List.mem_append.mp called with arm | body
    · obtain ⟨_, listed, imm⟩ := List.mem_filterMap.mp arm
      obtain ⟨a, member, rfl⟩ := List.mem_map.mp listed
      obtain ⟨f, chosen, rfl⟩ := Option.map_eq_some_iff.mp imm
      exact List.mem_map.mpr ⟨formulaFunction a.immediate f, List.mem_append_right _
        (List.mem_map.mpr ⟨_, used a member f chosen, rfl⟩), rfl⟩
    · obtain ⟨g, listed, called⟩ := List.mem_flatMap.mp body
      rcases List.mem_append.mp listed with sign | formula
      · split at sign
        · rw [List.mem_singleton.mp sign, called_signFunction] at called
          exact absurd called List.not_mem_nil
        · exact absurd sign List.not_mem_nil
      · obtain ⟨⟨layout, f⟩, member, rfl⟩ := List.mem_map.mp formula
        rw [called_formulaFunction (legible.formula?_eq _ member)] at called
        split at called
        · rename_i signed
          rw [List.mem_singleton.mp called, functions_of_signed member signed]
          exact List.mem_cons_self
        · exact absurd called List.not_mem_nil
  · exact absurd (expressions ▸ called) List.not_mem_nil

end Emitted

/-! ## The decoder of a table -/

theorem mem_usedFormulas {arms : List Arm} {layout : Immediate} {f : Formula} :
    (layout, f) ∈ LookupDecoder.usedFormulas arms ↔
      formula? layout = some f ∧ ∃ a ∈ arms, a.immediate = layout := by
  rw [LookupDecoder.usedFormulas, List.mem_filterMap]
  constructor
  · rintro ⟨other, -, kept⟩
    split at kept
    · rename_i used
      obtain ⟨g, chosen, same⟩ := Option.map_eq_some_iff.mp kept
      cases same
      obtain ⟨a, member, own⟩ := List.any_eq_true.mp used
      exact ⟨chosen, a, member, eq_of_beq own⟩
    · cases kept
  · rintro ⟨chosen, a, member, rfl⟩
    have used : (arms.any fun b => b.immediate == a.immediate) = true :=
      List.any_eq_true.mpr ⟨a, member, beq_self_eq_true _⟩
    exact ⟨a.immediate, Immediate.mem_all _, by rw [if_pos used, chosen]; rfl⟩

theorem usedFormulas_nodup (arms : List Arm) :
    ((LookupDecoder.usedFormulas arms).map Prod.fst).Nodup := by
  have distinct : Immediate.all.Nodup := by decide
  rw [LookupDecoder.usedFormulas, List.map_filterMap]
  refine distinct.filterMap fun one other layout kept kept' => ?_
  have own {l : Immediate} (kept : layout ∈ Option.map Prod.fst
      (if arms.any fun a => a.immediate == l then (formula? l).map fun f => (l, f) else none)) :
      l = layout := by
    obtain ⟨e, chosen, rfl⟩ := Option.map_eq_some_iff.mp kept
    split at chosen
    · obtain ⟨f, -, rfl⟩ := Option.map_eq_some_iff.mp chosen
      rfl
    · cases chosen
  exact (own kept).trans (own kept').symm

/-- The module that the decoder of a table is written as. -/
def Table.lookupModule (t : Table) : LookupModule := .ofDecoder (.ofTable t)

/-- The module takes the arm that is found in the table. -/
theorem Table.find?_moduleArm (t : Table) (raw mask : Word) :
    t.lookupModule.arms.find? (fun a => a.isTaken raw mask) =
      (t.arms.find? fun a => a.mask == mask && a.value == raw &&& mask).map .ofArm :=
  List.find?_map

/-- What a module answers for a word that a table decodes. -/
def Emitted.LookupModule.Found.ofDecoded (t : Table) (d : Decoded) : LookupModule.Found where
  raw := d.raw
  symbol := DecodeTables.symbol (t.name d.ordinal)
  operands := d.operands

namespace Table.DerivedFrom

variable {order : TrialOrder} {instructions : List Instruction} {t : Table} {raw mask : Word}
  (table : DerivedFrom order instructions t)
include table

theorem legible : Legible (LookupDecoder.ofTable t) where
  length_masks := Vector.length_toList
  opcode_lt := table.trial_lt
  formula?_eq := fun _ member => (mem_usedFormulas.mp member).1
  isWord := by
    intro a member
    obtain ⟨_, i, _, -, -, rfl⟩ := table.mem_arms.mp member
    exact isWord_symbol i.id_ne

/-- The module answers what a probe finds. -/
theorem lookup_eq : t.lookupModule.lookup raw mask =
    some ((t.probes.probe raw mask).map (.ofDecoded t)) := by
  cases probed : t.probes.probe raw mask with
  | none =>
    rw [LookupModule.lookup, find?_moduleArm, table.find?_arm_eq_none probed]
    rfl
  | some d =>
    obtain ⟨n, i, rule, listed, derived, rfl, carried, rfl⟩ := table.probe_eq_some_iff.mp probed
    have operands : t.lookupModule.operands raw (.ofArm (.ofMember i rule)) =
        some (rule.extract raw) :=
      operands_ofMember table.legible (usedFormulas_nodup t.arms) fun f chosen =>
        mem_usedFormulas.mpr ⟨chosen, _,
          table.mem_arms.mpr ⟨n, i, rule, listed, derived, rfl⟩, rfl⟩
    rw [LookupModule.lookup, find?_moduleArm, table.find?_arm listed derived carried]
    dsimp only [Option.map_some]
    rw [operands, Option.map_some, LookupModule.Found.ofDecoded, table.name_eq listed]
    rfl

/-- The module decodes a word as the table does. -/
theorem decode_eq_map (raw : Word) :
    t.lookupModule.decode raw = some ((t.decode raw).map (.ofDecoded t)) := by
  obtain ⟨opcode, computed, same⟩ := eval_opcodeExpr raw t.lookupModule.call
  have entry : t.lookupModule.masks[raw.opcode]? = some (t.plan.maskTable[raw.opcode]?.getD 0) :=
    t.getElem?_maskTable raw
  have trials : t.lookupModule.trials = t.plan.trials := rfl
  unfold LookupModule.decode Table.decode Plan.dispatch
  show ((opcodeExpr.eval _ _).bind _) = _
  rw [computed, Option.bind_some]
  dsimp only
  rw [same, entry, trials, lookup_eq_find?, Option.bind_eq_bind, Option.bind_some]
  by_cases zero : t.plan.maskTable[raw.opcode]?.getD 0 = 0
  · rw [if_pos zero, if_neg (not_not.mpr zero)]
    cases t.plan.trials.find? fun e => e.1 == raw.opcode with
    | none => rfl
    | some e =>
      rw [Option.map_some]
      dsimp only
      rw [findSomeM?_eq fun _ => table.lookup_eq]
      cases e.2.findSome? (t.probes.probe raw) <;> rfl
  · rw [if_neg zero, if_pos zero, table.lookup_eq]
    dsimp only
    cases t.probes.probe raw (t.plan.maskTable[raw.opcode]?.getD 0) <;> rfl

end Table.DerivedFrom

/-- The source of a decoder is a module that runs to an end on every word and answers what the table
decodes: the same error, or the same operands and the symbol of the instruction. Every function that
it calls is defined once. -/
theorem render_decoder_decodes {order : TrialOrder} {instructions : List Instruction} {t : Table}
    (built : Table.ofInstructions order instructions = .ok t) (options : Options) :
    ∃ source m, render t .decoder { options with target := .rust } = .ok source ∧
      LookupModule.read? source.text = some m ∧
      (∀ raw, m.decode raw = some ((t.decode raw).map (.ofDecoded t))) ∧
      ∀ name ∈ m.called, (m.functions.map Function.name).count name = 1 := by
  have table := Table.derivedFrom_of_ofInstructions built
  refine ⟨_, t.lookupModule, rfl, ?_, table.decode_eq_map, fun name called => ?_⟩
  · dsimp only
    exact read?_lines table.legible
  · refine List.count_eq_one_of_mem (names_nodup (usedFormulas_nodup t.arms)) ?_
    exact mem_names_of_called table.legible
      (fun a member f chosen => mem_usedFormulas.mpr ⟨chosen, a, member, rfl⟩) called

/-- The module tries the masks of an opcode in the order of the table, too. -/
theorem render_decoder_decodes_overlapping : ∃ t source m,
    Table.ofInstructions .specificity Overlapping.instructions = .ok t ∧
      render t .decoder { target := .rust } = .ok source ∧
      LookupModule.read? source.text = some m ∧
      m.decode 0x73 = some (.ok { raw := 0x73, symbol := "ECALL", operands := {} }) := by
  obtain ⟨t, built⟩ := Overlapping.exists_table
  obtain ⟨source, m, rendered, read, decodes, -⟩ := render_decoder_decodes built {}
  refine ⟨t, source, m, built, rendered, read, ?_⟩
  have table := Table.derivedFrom_of_ofInstructions built
  have name : t.name 1 = "ecall" := table.name_eq Overlapping.wins_ecall.listed
  have spelled : symbol "ecall" = "ECALL" := by decide +kernel
  rw [decodes, Overlapping.decode_ecall table, ← spelled, ← name]
  rfl

end DecodeTables
