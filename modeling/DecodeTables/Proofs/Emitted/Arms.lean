import DecodeTables.Artifact.Basic
import DecodeTables.Proofs.Decode
import DecodeTables.Proofs.Emitted.Token
import Mathlib

/-!
# The arms of a table

Every decoder that is emitted holds the arms of a table, one for each instruction. An arm with a mask
and a masked word is found just where a probe of the table succeeds (`find?_arm`,
`find?_arm_eq_none`), and no two arms have both in common (`keys_nodup`).
-/

namespace DecodeTables

open Artifact Emitted

/-! ## Searching -/

theorem find?_eq_some_of_unique {α : Type} {p : α → Bool} {items : List α} {a : α}
    (member : a ∈ items) (holds : p a = true) (unique : ∀ b ∈ items, p b = true → b = a) :
    items.find? p = some a := by
  cases found : items.find? p with
  | none => exact absurd holds (List.find?_eq_none.mp found a member)
  | some b => rw [unique b (List.mem_of_find?_eq_some found) (List.find?_some found)]

theorem lookup_eq_find? {α : Type} (items : List (Nat × α)) (k : Nat) :
    items.lookup k = (items.find? fun e => e.1 == k).map Prod.snd := by
  induction items with
  | nil => rfl
  | cons item rest ih =>
    rw [List.lookup_cons, List.find?_cons, Bool.beq_comm]
    cases item.1 == k with
    | true => rfl
    | false => exact ih

/-- Items that are tried in turn, each of which runs to an end. -/
theorem findSomeM?_eq {α β γ : Type} {run : α → Option (Option γ)} {probe : α → Option β}
    {answer : β → γ} (runs : ∀ a, run a = some ((probe a).map answer)) (items : List α) :
    items.findSomeM? run = some ((items.findSome? probe).map answer) := by
  have pure : run = fun a => some ((probe a).map answer) := funext runs
  rw [pure, List.map_findSome?]
  exact List.findSomeM?_pure

/-- Where a search finds what another one is mapped to, both fail or both succeed. -/
theorem none_or_some_of_map {α β : Type} {found : Option α} {probed : Option β} {g : β → Option α}
    (same : found.map some = probed.map g) :
    (found = none ∧ probed = none) ∨ ∃ a d, found = some a ∧ probed = some d ∧ some a = g d := by
  cases found with
  | none => exact .inl ⟨rfl, Option.map_eq_none_iff.mp same.symm⟩
  | some a =>
    obtain ⟨d, probed, value⟩ := Option.map_eq_some_iff.mp same.symm
    exact .inr ⟨a, d, rfl, probed, value.symm⟩

/-- A function of layouts that takes no two of them to the same value. -/
theorem Immediate.injective_of_nodup {α : Type} {f : Immediate → α}
    (distinct : (Immediate.all.map f).Nodup) : Function.Injective f := fun one other same =>
  List.inj_on_of_nodup_map distinct (mem_all one) (mem_all other) same

/-! ## Symbols -/

/-- A letter may become another letter while all else stays as it is. -/
theorem isAlphanum_of_isAlpha_eq {c d : Char} (letter : d.isAlpha = c.isAlpha)
    (other : c.isAlpha = false → d = c) (alphanum : c.isAlphanum = true) :
    d.isAlphanum = true := by
  cases alpha : c.isAlpha with
  | true => rw [Char.isAlphanum, letter, alpha, Bool.true_or]
  | false => rwa [other alpha]

theorem isAlphanum_toUpper {c : Char} (alphanum : c.isAlphanum = true) :
    c.toUpper.isAlphanum = true := by
  refine isAlphanum_of_isAlpha_eq (Char.isAlpha_toUpper_eq_isAlpha c) (fun none => ?_) alphanum
  rw [Char.isAlpha, Bool.or_eq_false_iff] at none
  exact Char.toUpper_eq_of_not_isLower (Bool.eq_false_iff.mp none.2)

theorem isAlphanum_toLower {c : Char} (alphanum : c.isAlphanum = true) :
    c.toLower.isAlphanum = true := by
  refine isAlphanum_of_isAlpha_eq (Char.isAlpha_toLower_eq_isAlpha c) (fun none => ?_) alphanum
  rw [Char.isAlpha, Bool.or_eq_false_iff] at none
  exact Char.toLower_eq_of_not_isUpper (Bool.eq_false_iff.mp none.1)

/-- A symbol is a name in a source. -/
theorem isWord_symbol {name : String} (nonempty : name ≠ "") : IsWord (symbol name) := by
  have characters : (symbol name).toList =
      name.toList.map fun c => if c.isAlphanum then c.toUpper else '_' := String.toList_ofList
  rw [IsWord, characters]
  refine ⟨fun none => nonempty ?_, fun _ member => ?_⟩
  · exact String.toList_eq_nil_iff.mp (List.map_eq_nil_iff.mp none)
  · obtain ⟨c, -, rfl⟩ := List.mem_map.mp member
    rw [isWordChar]
    split
    · rename_i alphanum
      rw [isAlphanum_toUpper alphanum, Bool.true_or]
    · rfl

/-! ## Arms -/

namespace Table

/-- The table of masks has an entry for every opcode. -/
theorem getElem?_maskTable (t : Table) (raw : Word) :
    t.plan.maskTable.toList[raw.opcode]? = some (t.plan.maskTable[raw.opcode]?.getD 0) := by
  rw [Vector.getElem?_toList, Vector.getElem?_eq_getElem (Word.opcode_lt raw)]
  rfl

namespace DerivedFrom

variable {order : TrialOrder} {instructions : List Instruction} {t : Table} {raw mask : Word}
  {n : Nat} {i : Instruction} {rule : Rule} (table : DerivedFrom order instructions t)
include table

theorem getElem?_arms (listed : instructions[n]? = some i)
    (derived : Rule.ofFields? i.fields = some rule) : t.arms[n]? = some (.ofMember i rule) := by
  rw [Table.arms, Table.members, table.instructions_eq, List.getElem?_map,
    table.getElem?_zip.mpr ⟨listed, derived⟩]
  rfl

theorem mem_arms {a : Arm} : a ∈ t.arms ↔ ∃ (n : Nat) (i : Instruction) (rule : Rule),
    instructions[n]? = some i ∧ Rule.ofFields? i.fields = some rule ∧ a = .ofMember i rule := by
  rw [Table.arms, Table.members, table.instructions_eq, List.mem_map]
  constructor
  · rintro ⟨⟨i, rule⟩, member, rfl⟩
    obtain ⟨n, held⟩ := List.mem_iff_getElem?.mp member
    obtain ⟨listed, derived⟩ := table.getElem?_zip.mp held
    exact ⟨n, i, rule, listed, derived, rfl⟩
  · rintro ⟨n, i, rule, listed, derived, rfl⟩
    exact ⟨(i, rule), List.mem_iff_getElem?.mpr ⟨n, table.getElem?_zip.mpr ⟨listed, derived⟩⟩, rfl⟩

theorem map_arms : t.arms.map (fun a => (a.mask, a.value)) =
    instructions.map fun i => (i.mask, i.value) := by
  have keys : t.arms.map (fun a => (a.mask, a.value)) =
      ((instructions.zip t.rules).map Prod.fst).map fun i => (i.mask, i.value) := by
    rw [Table.arms, Table.members, table.instructions_eq, List.map_map, List.map_map]
    rfl
  rw [keys, map_fst_zip table.rules_ok]

theorem length_arms : t.arms.length = instructions.length := by
  rw [← List.length_map (f := fun a : Arm => (a.mask, a.value)), table.map_arms, List.length_map]

/-- No two arms agree in both mask and literal bits. -/
theorem keys_nodup : (t.arms.map fun a => (a.mask, a.value)).Nodup := by
  rw [table.map_arms]
  exact (pairwise_zip_iff table.rules_ok).mp table.represents.distinct

/-- The arm of an instruction is found for the words that it matches. -/
theorem find?_arm (listed : instructions[n]? = some i)
    (derived : Rule.ofFields? i.fields = some rule) (carried : i.isMatch raw = true) :
    t.arms.find? (fun a => a.mask == i.mask && a.value == raw &&& i.mask) =
      some (.ofMember i rule) := by
  have value : i.value = raw &&& i.mask := (Instruction.isMatch_iff.mp carried).symm
  have member := table.mem_arms.mpr ⟨n, i, rule, listed, derived, rfl⟩
  refine find?_eq_some_of_unique member (by simp [Arm.ofMember, value]) fun a other taken => ?_
  rw [Bool.and_eq_true, beq_iff_eq, beq_iff_eq, ← value] at taken
  exact List.inj_on_of_nodup_map table.keys_nodup other member (Prod.ext taken.1 taken.2)

/-- No arm is found where a probe fails. -/
theorem find?_arm_eq_none (failed : t.probes.probe raw mask = none) :
    t.arms.find? (fun a => a.mask == mask && a.value == raw &&& mask) = none := by
  rw [List.find?_eq_none]
  intro a member taken
  obtain ⟨n, i, rule, held, derived, rfl⟩ := table.mem_arms.mp member
  rw [Bool.and_eq_true, beq_iff_eq, beq_iff_eq] at taken
  obtain ⟨rfl, carried⟩ := taken
  have unmatched := table.probe_eq_none_iff.mp failed i (List.mem_of_getElem? held) rfl
  rw [Instruction.isMatch_iff.mpr carried.symm] at unmatched
  cases unmatched

/-- Opcodes with masks to try are written in two digits. -/
theorem trial_lt : ∀ e ∈ t.plan.trials, e.1 < 0x100 := by
  rintro ⟨opcode, masks⟩ member
  rw [table.plan_eq] at member
  obtain ⟨several, -⟩ := Plan.mem_trials.mp member
  have used : masksOf instructions opcode ≠ [] :=
    List.ne_nil_of_length_pos (Nat.lt_of_succ_lt several)
  exact Nat.lt_trans (lt_of_masksOf_ne_nil used) (by decide)

end DerivedFrom

end Table

end DecodeTables
