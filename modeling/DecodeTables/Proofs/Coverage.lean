import DecodeTables.Proofs.Keyed
import DecodeTables.Proofs.Table
import Mathlib.Data.Finset.Card
import Mathlib.Data.Finset.Dedup

/-!
# Every opcode is covered

The masks of an opcode are a set, `usedMasks`. A group lists the set in the order of first use
(`masksOf_firstSeen`), one instruction after the other (`masksOf_append_singleton`). A plan lists it
in trial order, which leaves one list only (`TrialOrder.arranges_iff`), and nothing else decides what
is done with the opcode: `Plan.Covers` puts together what a plan has to hold for a set of masks, and
`plan_covers` says that a plan that is built holds it for every number.
-/

namespace DecodeTables

/-- The masks of the instructions with an opcode. -/
def usedMasks (instructions : List Instruction) (opcode : Nat) : Finset Word :=
  ((instructions.filter fun i => i.opcode == opcode).map Instruction.mask).toFinset

/-- The place of the first instruction with an opcode and a mask. -/
def firstUse (instructions : List Instruction) (opcode : Nat) (mask : Word) : Nat :=
  instructions.findIdx fun i => i.opcode == opcode && i.mask == mask

/-- A list holds a set of masks, each once and in the order in which the trials are made. -/
def TrialOrder.Arranges (order : TrialOrder) (masks : List Word) (used : Finset Word) : Prop :=
  masks.toFinset = used ∧ masks.Pairwise order.Before

variable {instructions : List Instruction} {order : TrialOrder} {opcode : Nat} {mask : Word}
  {masks : List Word}

/-! ## Sets of masks -/

theorem mem_usedMasks :
    mask ∈ usedMasks instructions opcode ↔ ∃ i ∈ instructions, i.opcode = opcode ∧ i.mask = mask := by
  simp only [usedMasks, List.mem_toFinset, List.mem_map, List.mem_filter, beq_iff_eq, and_assoc]

theorem toFinset_masksOf (instructions : List Instruction) (opcode : Nat) :
    (masksOf instructions opcode).toFinset = usedMasks instructions opcode := by
  ext mask
  rw [List.mem_toFinset, mem_masksOf, mem_usedMasks]

theorem card_usedMasks (instructions : List Instruction) (opcode : Nat) :
    (usedMasks instructions opcode).card = (masksOf instructions opcode).length := by
  rw [← toFinset_masksOf, List.toFinset_card_of_nodup (masksOf_nodup _ _)]

/-- One mask is used if it is the only one in the group. -/
theorem usedMasks_eq_singleton_iff :
    usedMasks instructions opcode = {mask} ↔ masksOf instructions opcode = [mask] := by
  constructor
  · intro only
    have one := card_usedMasks instructions opcode
    rw [only, Finset.card_singleton, eq_comm, List.length_eq_one_iff] at one
    obtain ⟨mask', sole⟩ := one
    rw [← toFinset_masksOf, sole, List.toFinset_cons, List.toFinset_nil, insert_empty_eq,
      Finset.singleton_inj] at only
    rw [sole, only]
  · intro sole
    rw [← toFinset_masksOf, sole, List.toFinset_cons, List.toFinset_nil, insert_empty_eq]

/-! ## The order of first use -/

/-- A further instruction puts its mask at the end of the group of its opcode, unless it is there. -/
theorem masksOf_append_singleton (front : List Instruction) (i : Instruction) (opcode : Nat) :
    masksOf (front ++ [i]) opcode =
      if i.opcode = opcode ∧ i.mask ∉ masksOf front opcode then masksOf front opcode ++ [i.mask]
      else masksOf front opcode := by
  by_cases own : i.opcode = opcode
  · have last : (front ++ [i]).filter (fun i => i.opcode == opcode) =
        front.filter (fun i => i.opcode == opcode) ++ [i] := by simp [own]
    unfold masksOf
    rw [last, List.map_append, List.map_singleton, eraseDups_append_singleton]
    simp only [List.mem_eraseDups, own, true_and, ite_not]
  · have none : (front ++ [i]).filter (fun i => i.opcode == opcode) =
        front.filter (fun i => i.opcode == opcode) := by simp [own]
    rw [if_neg fun both => own both.1, masksOf, none]
    rfl

theorem firstUse_lt_length :
    firstUse instructions opcode mask < instructions.length ↔ mask ∈ masksOf instructions opcode := by
  simp only [firstUse, List.findIdx_lt_length, mem_masksOf, Bool.and_eq_true, beq_iff_eq]

/-- Later instructions do not change the first use of a mask. -/
theorem firstUse_append (rest : List Instruction) (member : mask ∈ masksOf instructions opcode) :
    firstUse (instructions ++ rest) opcode mask = firstUse instructions opcode mask := by
  unfold firstUse
  rw [List.findIdx_append]
  exact if_pos (firstUse_lt_length.mpr member)

/-- A mask that is new is first used by later instructions. -/
theorem length_le_firstUse_append (rest : List Instruction)
    (new : mask ∉ masksOf instructions opcode) :
    instructions.length ≤ firstUse (instructions ++ rest) opcode mask := by
  unfold firstUse
  rw [List.findIdx_append]
  split
  · rename_i early
    exact absurd (firstUse_lt_length.mp early) new
  · exact Nat.le_add_left _ _

/-- The masks of an opcode stand in the order of first use. -/
theorem masksOf_firstSeen (instructions : List Instruction) (opcode : Nat) :
    (masksOf instructions opcode).Pairwise fun a b =>
      firstUse instructions opcode a < firstUse instructions opcode b := by
  induction instructions using List.reverseRecOn with
  | nil => exact .nil
  | append_singleton front i ih =>
    have before : (masksOf front opcode).Pairwise fun a b =>
        firstUse (front ++ [i]) opcode a < firstUse (front ++ [i]) opcode b := by
      refine ih.imp_of_mem fun {a b} member member' first => ?_
      rwa [firstUse_append [i] member, firstUse_append [i] member']
    rw [masksOf_append_singleton]
    split
    · rename_i new
      refine List.pairwise_append.mpr ⟨before, List.pairwise_singleton _ _, ?_⟩
      intro a member b last
      obtain rfl := List.mem_singleton.mp last
      rw [firstUse_append [i] member]
      exact Nat.lt_of_lt_of_le (firstUse_lt_length.mpr member) (length_le_firstUse_append [i] new.2)
    · exact before

/-! ## The order of trials -/

/-- Distinct masks are arranged by sorting them, and in no other way. -/
theorem TrialOrder.arranges_iff {masks sorted : List Word} (distinct : masks.Nodup) :
    order.Arranges sorted masks.toFinset ↔ sorted = order.sort masks := by
  constructor
  · rintro ⟨same, ascending⟩
    refine ascending.eq_of_mem_iff (sort_pairwise_before distinct) fun mask => ?_
    rw [mem_sort, ← List.mem_toFinset, ← List.mem_toFinset, same]
  · rintro rfl
    exact ⟨List.toFinset_eq_of_perm _ _ (sort_perm order masks), sort_pairwise_before distinct⟩

theorem arranges_usedMasks_iff : order.Arranges masks (usedMasks instructions opcode) ↔
    masks = order.sort (masksOf instructions opcode) := by
  rw [← toFinset_masksOf, TrialOrder.arranges_iff (masksOf_nodup _ _)]

/-! ## Plans -/

namespace Dispatch

theorem ofMasks_eq_unused_iff : ofMasks order masks = .unused ↔ masks = [] := by
  match masks with
  | [] => simp [ofMasks]
  | [_] => simp [ofMasks]
  | _ :: _ :: _ => simp [ofMasks]

theorem ofMasks_eq_single_iff : ofMasks order masks = .single mask ↔ masks = [mask] := by
  match masks with
  | [] => simp [ofMasks]
  | [_] => simp [ofMasks]
  | _ :: _ :: _ => simp [ofMasks]

theorem ofMasks_eq_trials_iff {sorted : List Word} : ofMasks order masks = .trials sorted ↔
    1 < masks.length ∧ sorted = order.sort masks := by
  match masks with
  | [] => simp [ofMasks]
  | [_] => simp [ofMasks]
  | _ :: _ :: _ => simp [ofMasks, eq_comm]

end Dispatch

namespace Plan

/-- What a plan holds under a number whose masks are the given ones. -/
structure Covers (p : Plan) (order : TrialOrder) (opcode : Nat) (used : Finset Word) : Prop where
  maskTable_ne_zero_iff :
    p.maskTable[opcode]?.getD 0 ≠ 0 ↔ opcode < opcodeCount ∧ used.card = 1
  eq_of_maskTable : ∀ mask, p.maskTable[opcode]? = some mask → mask ≠ 0 → used = {mask}
  hasTrials_iff : opcode ∈ p.trials.map Prod.fst ↔ 1 < used.card
  mem_trials_iff : ∀ masks, (opcode, masks) ∈ p.trials ↔ 1 < used.card ∧ order.Arranges masks used
  unused_iff : p.dispatch opcode = .unused ↔ used.card = 0
  single_iff : ∀ mask, p.dispatch opcode = .single mask ↔ used = {mask}
  trials_iff : ∀ masks, p.dispatch opcode = .trials masks ↔
    1 < used.card ∧ order.Arranges masks used
  masksFor_arranges : order.Arranges (p.masksFor opcode) used

/-- A number that is no opcode has no entry anywhere. -/
theorem dispatch_of_le (order : TrialOrder) (instructions : List Instruction)
    (large : opcodeCount ≤ opcode) :
    (build order (MaskGroups.ofInstructions instructions)).dispatch opcode = .unused := by
  have entry : (build order (MaskGroups.ofInstructions instructions)).maskTable[opcode]? = none :=
    Vector.getElem?_eq_none large
  have trials : (build order (MaskGroups.ofInstructions instructions)).trials.lookup opcode =
      none := by
    rw [List.lookup_eq_none_iff]
    rintro ⟨key, masks⟩ listed
    rw [bne_iff_ne]
    rintro rfl
    obtain ⟨several, -⟩ := mem_trials.mp listed
    rw [masksOf_of_le large] at several
    exact absurd several (by decide)
  rw [dispatch, entry, trials]
  rfl

/-- What is done with a number depends on the masks of its group. -/
theorem dispatch_eq (order : TrialOrder) (instructions : List Instruction) (opcode : Nat) :
    (build order (MaskGroups.ofInstructions instructions)).dispatch opcode =
      Dispatch.ofMasks order (masksOf instructions opcode) := by
  by_cases bound : opcode < opcodeCount
  · exact dispatch_ofInstructions order instructions bound
  · rw [dispatch_of_le order instructions (Nat.le_of_not_lt bound),
      masksOf_of_le (Nat.le_of_not_lt bound)]
    rfl

/-- The mask table has the sole mask of each opcode. -/
theorem getElem?_maskTable (order : TrialOrder) (bound : opcode < opcodeCount) :
    (build order (MaskGroups.ofInstructions instructions)).maskTable[opcode]? =
      some (soleMask (masksOf instructions opcode)) := by
  simp only [build, Vector.getElem?_map, MaskGroups.getElem?_ofInstructions bound, Option.map_some]

/-- The entry of a mask table is not zero for one mask, and zero for more or none. -/
theorem soleMask_eq_iff (nonzero : mask ≠ 0) : soleMask masks = mask ↔ masks = [mask] := by
  match masks with
  | [] => exact iff_of_false nonzero.symm (by simp)
  | [other] => simp [soleMask]
  | _ :: _ :: _ => exact iff_of_false nonzero.symm (by simp)

theorem soleMask_ne_zero_iff (nonzero : ∀ mask ∈ masks, mask ≠ 0) :
    soleMask masks ≠ 0 ↔ masks.length = 1 := by
  constructor
  · intro held
    rw [(soleMask_eq_iff held).mp rfl, List.length_singleton]
  · intro one
    obtain ⟨mask, rfl⟩ := List.length_eq_one_iff.mp one
    exact nonzero mask (List.mem_singleton_self mask)

/-- The opcodes with a trial list are those with several masks. -/
theorem mem_keys_trials :
    opcode ∈ (build order (MaskGroups.ofInstructions instructions)).trials.map Prod.fst ↔
      1 < (masksOf instructions opcode).length := by
  constructor
  · intro keyed
    obtain ⟨⟨key, masks⟩, listed, rfl⟩ := List.mem_map.mp keyed
    exact (mem_trials.mp listed).1
  · intro several
    exact List.mem_map.mpr ⟨(opcode, _), mem_trials.mpr ⟨several, rfl⟩, rfl⟩

theorem covers_build (order : TrialOrder) (instructions : List Instruction) (opcode : Nat) :
    (build order (MaskGroups.ofInstructions instructions)).Covers order opcode
      (usedMasks instructions opcode) where
  maskTable_ne_zero_iff := by
    rw [card_usedMasks]
    by_cases bound : opcode < opcodeCount
    · rw [getElem?_maskTable order bound, Option.getD_some,
        soleMask_ne_zero_iff fun _ => ne_zero_of_mem_masksOf]
      exact ⟨fun one => ⟨bound, one⟩, fun both => both.2⟩
    · rw [Vector.getElem?_eq_none (Nat.le_of_not_lt bound)]
      exact ⟨fun held => absurd rfl held, fun both => absurd both.1 bound⟩
  eq_of_maskTable mask entry nonzero := by
    have bound : opcode < opcodeCount := (Vector.getElem?_eq_some_iff.mp entry).1
    rw [getElem?_maskTable order bound, Option.some.injEq, soleMask_eq_iff nonzero] at entry
    exact usedMasks_eq_singleton_iff.mpr entry
  hasTrials_iff := by rw [mem_keys_trials, card_usedMasks]
  mem_trials_iff masks := by
    rw [mem_trials, card_usedMasks, arranges_usedMasks_iff]
  unused_iff := by
    rw [dispatch_eq, Dispatch.ofMasks_eq_unused_iff, card_usedMasks, List.length_eq_zero_iff]
  single_iff mask := by
    rw [dispatch_eq, Dispatch.ofMasks_eq_single_iff, usedMasks_eq_singleton_iff]
  trials_iff masks := by
    rw [dispatch_eq, Dispatch.ofMasks_eq_trials_iff, card_usedMasks, arranges_usedMasks_iff]
  masksFor_arranges := by
    rw [arranges_usedMasks_iff, masksFor, dispatch_eq]
    match masksOf instructions opcode with
    | [] => exact (TrialOrder.sort_nil order).symm
    | [mask] => exact (TrialOrder.sort_singleton order mask).symm
    | _ :: _ :: _ => rfl

/-- An opcode has an entry in the mask table or a trial list, and never both. -/
theorem Covers.exclusive {p : Plan} {used : Finset Word} (covers : p.Covers order opcode used) :
    ¬ (p.maskTable[opcode]?.getD 0 ≠ 0 ∧ opcode ∈ p.trials.map Prod.fst) := by
  rw [covers.maskTable_ne_zero_iff, covers.hasTrials_iff]
  omega

end Plan

/-- The group of an opcode lists the masks of its instructions, each once and in the order of first
use. The plan covers these masks: a sole mask is in the table, which has a place for each opcode,
several masks are in the trials, which list no opcode twice, and no opcode is in both. Numbers that
are no opcodes have no masks and are unused. -/
theorem plan_covers (order : TrialOrder) (instructions : List Instruction) (opcode : Nat) :
    let groups := MaskGroups.ofInstructions instructions
    let plan := Plan.build order groups
    (opcode < opcodeCount → ∃ masks, groups.get? opcode = some masks ∧
      masks.toFinset = usedMasks instructions opcode ∧ masks.Nodup ∧
      masks.Pairwise fun a b =>
        firstUse instructions opcode a < firstUse instructions opcode b) ∧
    plan.maskTable.toList.length = 128 ∧
    (plan.trials.map Prod.fst).Pairwise (· < ·) ∧
    plan.Covers order opcode (usedMasks instructions opcode) ∧
    ¬ (plan.maskTable[opcode]?.getD 0 ≠ 0 ∧ opcode ∈ plan.trials.map Prod.fst) ∧
    (opcodeCount ≤ opcode → groups.get? opcode = none ∧ usedMasks instructions opcode = ∅ ∧
      plan.dispatch opcode = .unused ∧ plan.masksFor opcode = []) := by
  intro groups plan
  have covers : plan.Covers order opcode (usedMasks instructions opcode) :=
    Plan.covers_build order instructions opcode
  refine ⟨fun bound => ?_, Vector.length_toList, ?_, covers, covers.exclusive, fun large => ?_⟩
  · exact ⟨_, MaskGroups.getElem?_ofInstructions bound, toFinset_masksOf instructions opcode,
      masksOf_nodup instructions opcode, masksOf_firstSeen instructions opcode⟩
  · exact List.pairwise_map.mpr (Plan.trials_pairwise_lt order groups)
  · have unused : plan.dispatch opcode = .unused := Plan.dispatch_of_le order instructions large
    refine ⟨Vector.getElem?_eq_none large, ?_, unused, ?_⟩
    · exact Finset.card_eq_zero.mp (covers.unused_iff.mp unused)
    · rw [Plan.masksFor, unused]

/-- Two instructions share an opcode, and the mask of the one that is listed last is tried first. -/
theorem plan_covers_overlapping :
    (∃ masks, (MaskGroups.ofInstructions Overlapping.instructions).get? 0x73 = some masks ∧
      masks.toFinset = {0x707f, 0xffffffff}) ∧
    (Plan.build .specificity (MaskGroups.ofInstructions Overlapping.instructions)).dispatch 0x73 =
      .trials [0xffffffff, 0x707f] := by
  obtain ⟨listed, -, -, covers, -⟩ := plan_covers .specificity Overlapping.instructions 0x73
  obtain ⟨masks, group, same, -⟩ := listed (by decide)
  have used : usedMasks Overlapping.instructions 0x73 = {0x707f, 0xffffffff} := by decide
  refine ⟨⟨masks, group, same.trans used⟩, (covers.trials_iff _).mpr ⟨?_, ?_, ?_⟩⟩
  · rw [used]
    decide
  · rw [used]
    decide
  · decide

end DecodeTables
