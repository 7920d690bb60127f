import DecodeTables.Plan
import DecodeTables.Proofs.Instruction
import DecodeTables.Proofs.Keyed
import DecodeTables.Proofs.TrialOrder
import Mathlib.Data.List.Sort

/-!
# What a plan dispatches to

`masksOf` lists the masks of an opcode, and `Dispatch.ofMasks` what a decoder has to do with such a
list. A plan that is built does just that (`Plan.dispatch_build`): the zeros of its mask table are
never taken for masks, and its trials are found under their opcode.
-/

namespace DecodeTables

/-- The distinct masks of the instructions of an opcode, in the order of first use. -/
def masksOf (instructions : List Instruction) (opcode : Nat) : List Word :=
  ((instructions.filter fun i => i.opcode == opcode).map Instruction.mask).eraseDups

/-- What a decoder does with the masks of an opcode. -/
def Dispatch.ofMasks (order : TrialOrder) : List Word → Dispatch
  | [] => .unused
  | [mask] => .single mask
  | masks => .trials (order.sort masks)

/-! ## Groups -/

variable {instructions : List Instruction} {order : TrialOrder} {opcode : Nat} {mask : Word}

theorem masksOf_nodup (instructions : List Instruction) (opcode : Nat) :
    (masksOf instructions opcode).Nodup :=
  nodup_eraseDups _

theorem mem_masksOf :
    mask ∈ masksOf instructions opcode ↔ ∃ i ∈ instructions, i.opcode = opcode ∧ i.mask = mask := by
  simp only [masksOf, List.mem_eraseDups, List.mem_map, List.mem_filter, beq_iff_eq, and_assoc]

theorem ne_zero_of_mem_masksOf (member : mask ∈ masksOf instructions opcode) : mask ≠ 0 := by
  obtain ⟨i, -, -, rfl⟩ := mem_masksOf.mp member
  exact i.mask_ne_zero

theorem masksOf_eq_nil_iff :
    masksOf instructions opcode = [] ↔ ∀ i ∈ instructions, i.opcode ≠ opcode := by
  rw [List.eq_nil_iff_forall_not_mem]
  constructor
  · exact fun none i listed same => none i.mask (mem_masksOf.mpr ⟨i, listed, same, rfl⟩)
  · intro unused mask member
    obtain ⟨i, listed, same, -⟩ := mem_masksOf.mp member
    exact unused i listed same

/-- No instruction has a number as its opcode that is none. -/
theorem masksOf_of_le (large : opcodeCount ≤ opcode) : masksOf instructions opcode = [] :=
  masksOf_eq_nil_iff.mpr fun i _ same => absurd (i.opcode_lt) (by omega)

theorem lt_of_masksOf_ne_nil (used : masksOf instructions opcode ≠ []) : opcode < opcodeCount := by
  by_contra large
  exact used (masksOf_of_le (Nat.le_of_not_lt large))

theorem MaskGroups.getElem?_ofInstructions (bound : opcode < opcodeCount) :
    (MaskGroups.ofInstructions instructions).masks[opcode]? =
      some (masksOf instructions opcode) := by
  simp only [ofInstructions, Vector.getElem?_ofFn, bound]
  rfl

/-- Groups are made from the masks and the literal bits alone. -/
theorem MaskGroups.ofInstructions_eq_of_keys {others : List Instruction}
    (same : (instructions.map fun i => (i.mask, i.value)) =
      others.map fun i => (i.mask, i.value)) :
    MaskGroups.ofInstructions instructions = MaskGroups.ofInstructions others := by
  have masks (instructions : List Instruction) (opcode : Nat) :
      (instructions.filter fun i => i.opcode == opcode).map Instruction.mask =
        ((instructions.map fun i => (i.mask, i.value)).filter fun e =>
          e.2.opcode == opcode).map Prod.fst := by
    rw [List.filter_map, List.map_map]
    rfl
  simp only [MaskGroups.ofInstructions, masks, same]

/-- Items stand under ascending places. -/
theorem zipIdx_pairwise_lt {α : Type} (items : List α) (start : Nat) :
    (items.zipIdx start).Pairwise fun a b => a.2 < b.2 := by
  have places : ((items.zipIdx start).map Prod.snd).Pairwise (· < ·) := by
    rw [List.zipIdx_map_snd]
    exact List.pairwise_lt_range' 1
  exact List.pairwise_map.mp places

/-- The used opcodes are those that have masks. -/
theorem MaskGroups.mem_used {masks : List Word} :
    (opcode, masks) ∈ (MaskGroups.ofInstructions instructions).used ↔
      masks ≠ [] ∧ masks = masksOf instructions opcode := by
  simp only [MaskGroups.used, List.mem_map, List.mem_filter, Prod.exists, Prod.mk.injEq,
    Bool.not_eq_true', List.mem_zipIdx_iff_getElem?, Vector.getElem?_toList]
  constructor
  · rintro ⟨group, place, ⟨listed, nonempty⟩, rfl, rfl⟩
    have bound : place < opcodeCount := (Vector.getElem?_eq_some_iff.mp listed).1
    rw [MaskGroups.getElem?_ofInstructions bound, Option.some.injEq] at listed
    exact ⟨List.isEmpty_eq_false_iff.mp nonempty, listed.symm⟩
  · rintro ⟨nonempty, rfl⟩
    have bound := lt_of_masksOf_ne_nil nonempty
    exact ⟨_, opcode, ⟨MaskGroups.getElem?_ofInstructions bound,
      List.isEmpty_eq_false_iff.mpr nonempty⟩, rfl, rfl⟩

/-- The opcodes that are used ascend. -/
theorem MaskGroups.used_pairwise_lt (groups : MaskGroups) :
    groups.used.Pairwise fun a b => a.1 < b.1 :=
  List.pairwise_map.mpr ((zipIdx_pairwise_lt groups.masks.toList 0).filter _)

/-! ## Plans -/

/-- In a list of the kept items under their places, each is found under its place. -/
theorem lookup_places {α β : Type} (keep : α → Bool) (f : α → β) (items : List α) (start k : Nat) :
    (((items.zipIdx start).filter fun e => keep e.1).map fun e => (e.2, f e.1)).lookup (start + k) =
      items[k]?.bind fun a => if keep a then some (f a) else none := by
  induction items generalizing start k with
  | nil => rfl
  | cons item rest ih =>
    have later := ih (start + 1)
    rw [List.zipIdx_cons, List.filter_cons]
    cases k with
    | zero =>
      rw [Nat.add_zero, List.getElem?_cons_zero, Option.bind_some]
      split
      · exact List.lookup_cons_self
      · rw [List.lookup_eq_none_iff]
        intro e member
        obtain ⟨⟨a, place⟩, kept, rfl⟩ := List.mem_map.mp member
        have lower := List.le_snd_of_mem_zipIdx (List.mem_filter.mp kept).1
        exact bne_iff_ne.mpr (Nat.ne_of_lt lower)
    | succ k =>
      rw [show start + (k + 1) = start + 1 + k by omega, List.getElem?_cons_succ, ← later]
      split
      · rw [List.map_cons, List.lookup_cons, beq_eq_false_iff_ne.mpr (by dsimp only; omega)]
      · rfl

namespace Plan

variable {groups : MaskGroups} {masks : List Word}

/-- An opcode has a trial list if it has several masks. -/
theorem lookup_trials (order : TrialOrder) (listed : groups.masks[opcode]? = some masks) :
    (build order groups).trials.lookup opcode =
      if 1 < masks.length then some (order.sort masks) else none := by
  have places := lookup_places (fun masks : List Word => !masks.isEmpty && decide (1 < masks.length))
    order.sort groups.masks.toList 0 opcode
  rw [Nat.zero_add, Vector.getElem?_toList, listed, Option.bind_some] at places
  have several : (!masks.isEmpty && decide (1 < masks.length)) = decide (1 < masks.length) := by
    cases masks <;> rfl
  rw [several] at places
  simp only [decide_eq_true_eq] at places
  rw [← places]
  simp only [build, MaskGroups.used, List.filter_map, List.map_map, List.filter_filter]
  congr 3
  funext e
  exact Bool.and_comm _ _

/-- The opcodes with several masks ascend. -/
theorem trials_pairwise_lt (order : TrialOrder) (groups : MaskGroups) :
    (build order groups).trials.Pairwise fun a b => a.1 < b.1 :=
  List.pairwise_map.mpr (groups.used_pairwise_lt.filter _)

/-- A plan dispatches every opcode by the masks of its group. -/
theorem dispatch_build (order : TrialOrder) (listed : groups.masks[opcode]? = some masks)
    (nonzero : ∀ mask ∈ masks, mask ≠ 0) :
    (build order groups).dispatch opcode = Dispatch.ofMasks order masks := by
  have entry : (build order groups).maskTable[opcode]?.getD 0 = soleMask masks := by
    simp only [build, Vector.getElem?_map, listed, Option.map_some, Option.getD_some]
  unfold dispatch
  rw [entry, lookup_trials order listed]
  match masks, nonzero with
  | [], _ => rfl
  | [mask], nonzero => exact if_pos (nonzero mask (List.mem_singleton_self mask))
  | _ :: _ :: _, _ => simp [soleMask, Dispatch.ofMasks]

/-- The masks that are tried for an opcode are those of its instructions, in trial order. -/
theorem dispatch_ofInstructions (order : TrialOrder) (instructions : List Instruction)
    (bound : opcode < opcodeCount) :
    (build order (MaskGroups.ofInstructions instructions)).dispatch opcode =
      Dispatch.ofMasks order (masksOf instructions opcode) :=
  dispatch_build order (MaskGroups.getElem?_ofInstructions bound) fun _ => ne_zero_of_mem_masksOf

/-- The trials are the opcodes with several masks, each with these masks in trial order. -/
theorem mem_trials : (opcode, masks) ∈
      (build order (MaskGroups.ofInstructions instructions)).trials ↔
    1 < (masksOf instructions opcode).length ∧
      masks = order.sort (masksOf instructions opcode) := by
  simp only [build, List.mem_map, List.mem_filter, Prod.exists, Prod.mk.injEq, decide_eq_true_eq,
    MaskGroups.mem_used]
  constructor
  · rintro ⟨_, _, ⟨⟨-, rfl⟩, several⟩, rfl, sorted⟩
    exact ⟨several, sorted.symm⟩
  · rintro ⟨several, sorted⟩
    exact ⟨opcode, _, ⟨⟨List.ne_nil_of_length_pos (Nat.lt_of_succ_lt several), rfl⟩, several⟩, rfl,
      sorted.symm⟩

/-! ## Instructions in another order -/

section

variable {others : List Instruction} (perm : instructions.Perm others)
include perm

theorem masksOf_perm (opcode : Nat) :
    (masksOf instructions opcode).Perm (masksOf others opcode) := by
  refine (List.perm_ext_iff_of_nodup (masksOf_nodup _ _) (masksOf_nodup _ _)).mpr fun mask => ?_
  rw [mem_masksOf, mem_masksOf]
  simp only [perm.mem_iff]

theorem maskTable_eq_of_perm (order : TrialOrder) :
    (build order (MaskGroups.ofInstructions instructions)).maskTable =
      (build order (MaskGroups.ofInstructions others)).maskTable := by
  have sole {masks masks' : List Word} (perm : masks.Perm masks') :
      soleMask masks = soleMask masks' := by
    match masks, masks', perm with
    | [], _, perm => rw [List.nil_perm.mp perm]
    | [mask], _, perm => rw [List.singleton_perm.mp perm]
    | _ :: _ :: _, _ :: _ :: _, _ => rfl
    | _ :: _ :: _, [_], perm => exact absurd perm.length_eq (by simp)
    | _ :: _ :: _, [], perm => exact absurd perm.length_eq (by simp)
  refine Vector.ext fun opcode bound => ?_
  simp only [build, MaskGroups.ofInstructions, Vector.getElem_map, Vector.getElem_ofFn]
  exact sole (masksOf_perm perm opcode)

theorem trials_eq_of_perm (order : TrialOrder) :
    (build order (MaskGroups.ofInstructions instructions)).trials =
      (build order (MaskGroups.ofInstructions others)).trials := by
  let Ascending (a b : Nat × List Word) : Prop := a.1 < b.1
  have asymm : Std.Asymm Ascending := ⟨fun _ _ => Nat.lt_asymm⟩
  refine (trials_pairwise_lt order (MaskGroups.ofInstructions instructions)).eq_of_mem_iff
    (trials_pairwise_lt order (MaskGroups.ofInstructions others)) fun e => ?_
  have masks := masksOf_perm perm e.1
  rw [mem_trials, mem_trials, masks.length_eq, TrialOrder.sort_eq_of_perm masks]

end

end Plan

end DecodeTables
