import DecodeTables.ProbeTable
import DecodeTables.Proofs.Instruction
import Mathlib.Data.List.Nodup

/-!
# Building probe tables

What is in a numbering and in a probe table after all items went in. `Numbering.names_of_ofNames`:
the names of a numbering are those that were listed. `ProbeTable.Represents` says that a table
answers a probe with the row of the item that has the mask and the literal bits, for every item;
`ProbeTable.represents_of_build` carries it through the whole pass from the step for one row, and
`ProbeTable.rows_of_build` does so for the list of rows and its order. All items go in if no symbol
and no pair of mask and literal bits comes twice (`Numbering.exists_ofNames_iff`,
`ProbeTable.exists_build_iff`).
-/

namespace DecodeTables

namespace Numbering

variable {n m : Numbering} {name : String} {names : List String}

/-- After some names went in, a numbering has just these. -/
theorem names_of_push (done : List String) (name : String) (n m : Numbering) (held : n.names = done)
    (pushed : n.push name = .ok m) : m.names = done ++ [name] := by
  unfold push at pushed
  split at pushed
  · cases pushed
  · split at pushed
    · cases pushed
    · rw [← held, ← Except.ok.inj pushed]

theorem names_of_ofNames (run : ofNames names = .ok n) : n.names = names :=
  foldlM_invariant (fun done (n : Numbering) => n.names = done) rfl names_of_push run

theorem names_nodup (n : Numbering) : n.names.Nodup :=
  List.Nodup.of_map symbol n.nodup

/-- Ordinals are places in the list of names. -/
theorem ordinal?_of_getElem? {k : Nat} (listed : n.names[k]? = some name) :
    n.ordinal? name = some k := by
  obtain ⟨bound, rfl⟩ := List.getElem?_eq_some_iff.mp listed
  exact List.idxOf?_eq_some_iff.mpr ⟨bound, rfl, fun j before same =>
    absurd ((List.Nodup.getElem_inj_iff n.names_nodup).mp same) (Nat.ne_of_lt before)⟩

theorem exists_push_iff : (∃ m, n.push name = .ok m) ↔ symbol name ∉ n.names.map symbol := by
  unfold push
  constructor
  · rintro ⟨m, pushed⟩ taken
    obtain ⟨earlier, member, same⟩ := List.mem_map.mp taken
    split at pushed
    · cases pushed
    · split at pushed
      · cases pushed
      · rename_i free
        exact List.find?_eq_none.mp free earlier member (beq_iff_eq.mpr same)
  · intro free
    rw [if_neg fun member => free (List.mem_map.mpr ⟨name, member, rfl⟩)]
    split
    · rename_i earlier found
      have same : symbol earlier = symbol name := by simpa using List.find?_some found
      exact absurd (List.mem_map.mpr ⟨earlier, List.mem_of_find?_eq_some found, same⟩) free
    · exact ⟨_, rfl⟩

/-- Names can be numbered if no two of them have the same symbol. -/
theorem exists_ofNames_iff : (∃ n, ofNames names = .ok n) ↔ (names.map symbol).Nodup := by
  constructor
  · rintro ⟨n, run⟩
    rw [← names_of_ofNames run]
    exact n.nodup
  · intro distinct
    refine exists_foldlM (fun done (n : Numbering) => n.names = done) rfl names_of_push ?_
    intro done name rest n split same
    rw [split, List.map_append, List.nodup_append] at distinct
    rw [exists_push_iff, same]
    exact fun taken => distinct.2.2 _ taken _ (List.mem_map.mpr ⟨name, List.mem_cons_self, rfl⟩) rfl

end Numbering

namespace Probe

variable {p q r : Probe}

theorem before_iff : p.before q = true ↔ p.mask < q.mask ∨ p.mask = q.mask ∧ p.value < q.value := by
  simp only [before, Bool.or_eq_true, Bool.and_eq_true, decide_eq_true_eq, beq_iff_eq]

theorem before_trans (first : p.before q = true) (second : q.before r = true) :
    p.before r = true := by
  simp only [before_iff, BitVec.lt_def] at first second ⊢
  rcases first with less | ⟨same, less⟩ <;> rcases second with less' | ⟨same', less'⟩
  · exact .inl (Nat.lt_trans less less')
  · exact .inl (same' ▸ less)
  · exact .inl (same ▸ less')
  · exact .inr ⟨same.trans same', Nat.lt_trans less less'⟩

/-- Rows that differ in mask or literal bits are ranked. -/
theorem before_of_not_before (ne : q.key ≠ p.key) (not : ¬ p.before q = true) :
    q.before p = true := by
  simp only [before_iff, BitVec.lt_def, not_or, not_and] at not ⊢
  by_cases same : q.mask = p.mask
  · have differ : q.value.toNat ≠ p.value.toNat := fun value =>
      ne (Prod.ext same (BitVec.eq_of_toNat_eq value))
    have least := not.2 same.symm
    exact .inr ⟨same, by omega⟩
  · have differ : q.mask.toNat ≠ p.mask.toNat := fun mask => same (BitVec.eq_of_toNat_eq mask)
    exact .inl (by omega)

end Probe

namespace ProbeTable

/-- The row of an instruction, if its identifier is numbered. -/
def row? (numbering : Numbering) (item : Instruction × Rule) : Option Probe :=
  (numbering.ordinal? item.1.id).map fun ordinal =>
    { mask := item.1.mask, value := item.1.value, ordinal, rule := item.2 }

/-- A table has the rows of the items and no others. -/
structure Represents (numbering : Numbering) (items : List (Instruction × Rule)) (t : ProbeTable) :
    Prop where
  /-- A probe finds the row of the item with its mask and literal bits. -/
  find?_iff : ∀ mask value p, t.find? mask value = some p ↔
    ∃ item ∈ items, item.1.mask = mask ∧ item.1.value = value ∧ row? numbering item = some p
  numbered : ∀ item ∈ items, (row? numbering item).isSome = true
  /-- No two items agree in both mask and literal bits. -/
  distinct : items.Pairwise fun a b => (a.1.mask, a.1.value) ≠ (b.1.mask, b.1.value)

variable {numbering : Numbering} {items : List (Instruction × Rule)} {t t' : ProbeTable}
  {mask value : Word}

/-- A probe finds a row if an item has the mask and the literal bits. -/
theorem Represents.exists_find?_iff (held : Represents numbering items t) :
    (∃ p, t.find? mask value = some p) ↔
      ∃ item ∈ items, item.1.mask = mask ∧ item.1.value = value := by
  constructor
  · intro found
    obtain ⟨p, found⟩ := found
    obtain ⟨item, member, mask, value, -⟩ := (held.find?_iff _ _ p).mp found
    exact ⟨item, member, mask, value⟩
  · intro listed
    obtain ⟨item, member, mask, value⟩ := listed
    obtain ⟨p, isRow⟩ := Option.isSome_iff_exists.mp (held.numbered item member)
    exact ⟨p, (held.find?_iff _ _ p).mpr ⟨item, member, mask, value, isRow⟩⟩

theorem find?_cons (p : Probe) (rows : List Probe) :
    (⟨p :: rows⟩ : ProbeTable).find? mask value =
      if p.mask = mask ∧ p.value = value then some p
      else (⟨rows⟩ : ProbeTable).find? mask value := by
  by_cases own : p.mask = mask ∧ p.value = value <;> simp [find?, own]

/-- A row whose key is new answers probes for its key and no others. -/
theorem find?_insertRow {p : Probe} {rows : List Probe}
    (new : (⟨rows⟩ : ProbeTable).find? p.mask p.value = none) :
    (⟨insertRow p rows⟩ : ProbeTable).find? mask value =
      if p.mask = mask ∧ p.value = value then some p
      else (⟨rows⟩ : ProbeTable).find? mask value := by
  induction rows with
  | nil => exact find?_cons p []
  | cons q rest ih =>
    unfold insertRow
    split
    · exact find?_cons p (q :: rest)
    · rw [find?_cons] at new
      split at new
      · cases new
      · rename_i differs
        rw [find?_cons, find?_cons, ih new]
        split
        · rename_i found
          obtain ⟨rfl, rfl⟩ := found
          rw [if_neg fun own => differs ⟨own.1.symm, own.2.symm⟩]
        · rfl

/-- Everything that adding an instruction does when it succeeds. -/
theorem add_eq_ok {instruction : Instruction} {rule : Rule}
    (added : t.add numbering instruction rule = .ok t') :
    ∃ p, row? numbering (instruction, rule) = some p ∧
      t.find? instruction.mask instruction.value = none ∧ t' = ⟨insertRow p t.rows⟩ := by
  unfold add at added
  split at added
  · cases added
  · rename_i ordinal numbered
    split at added
    · cases added
    · rename_i absent
      exact ⟨_, by rw [row?, numbered]; rfl, absent, (Except.ok.inj added).symm⟩

/-- After an item went in, a table has one more row. -/
theorem represents_of_add (done : List (Instruction × Rule)) (added : Instruction × Rule)
    (t t' : ProbeTable) (before : Represents numbering done t)
    (run : t.add numbering added.1 added.2 = .ok t') :
    Represents numbering (done ++ [added]) t' := by
  obtain ⟨instruction, rule⟩ := added
  obtain ⟨p, isRow, absent, rfl⟩ := add_eq_ok run
  have key : p.mask = instruction.mask ∧ p.value = instruction.value := by
    obtain ⟨_, -, rfl⟩ := Option.map_eq_some_iff.mp isRow
    exact ⟨rfl, rfl⟩
  have fresh : ∀ item ∈ done,
      (item.1.mask, item.1.value) ≠ (instruction.mask, instruction.value) := by
    intro item member same
    obtain ⟨q, found⟩ := before.exists_find?_iff.mpr ⟨item, member, Prod.mk.inj same⟩
    cases absent.symm.trans found
  refine ⟨fun mask value q => ?_, fun item member => ?_, ?_⟩
  · rw [find?_insertRow (by rw [key.1, key.2]; exact absent), key.1, key.2]
    simp only [List.mem_append, List.mem_singleton, or_and_right, exists_or, exists_eq_left]
    split
    · rename_i own
      obtain ⟨rfl, rfl⟩ := own
      rw [isRow]
      constructor
      · exact fun same => .inr ⟨rfl, rfl, same⟩
      · rintro (⟨item, member, sameMask, sameValue, -⟩ | ⟨-, -, same⟩)
        · exact absurd (by rw [sameMask, sameValue]) (fresh item member)
        · exact same
    · rename_i other
      rw [show (⟨t.rows⟩ : ProbeTable) = t from rfl, before.find?_iff]
      exact ⟨.inl, fun found => found.elim id fun own => absurd ⟨own.1, own.2.1⟩ other⟩
  · rw [List.mem_append, List.mem_singleton] at member
    rcases member with member | rfl
    · exact before.numbered item member
    · exact isRow ▸ rfl
  · rw [List.pairwise_append]
    refine ⟨before.distinct, List.pairwise_singleton _ _, fun item member other last => ?_⟩
    rw [List.mem_singleton] at last
    exact last ▸ fresh item member

theorem represents_empty (numbering : Numbering) : Represents numbering [] empty :=
  ⟨fun _ _ _ => by simp [find?, empty], fun _ member => absurd member List.not_mem_nil, .nil⟩

/-- A table that is built represents its items. -/
theorem represents_of_build (run : build numbering items = .ok t) :
    Represents numbering items t :=
  foldlM_invariant (Represents numbering) (represents_empty numbering) represents_of_add run

/-- Items go in if all are numbered and no two agree in both mask and literal bits. -/
theorem exists_build_iff : (∃ t, build numbering items = .ok t) ↔
    (∀ item ∈ items, (row? numbering item).isSome = true) ∧
      items.Pairwise fun a b => (a.1.mask, a.1.value) ≠ (b.1.mask, b.1.value) := by
  constructor
  · rintro ⟨t, run⟩
    have represents := represents_of_build run
    exact ⟨represents.numbered, represents.distinct⟩
  · rintro ⟨numbered, distinct⟩
    refine exists_foldlM (Represents numbering) (represents_empty numbering) represents_of_add ?_
    rintro done ⟨i, rule⟩ rest t split before
    have member : (i, rule) ∈ items := split ▸ List.mem_append_right _ List.mem_cons_self
    obtain ⟨p, isRow⟩ := Option.isSome_iff_exists.mp (numbered _ member)
    obtain ⟨ordinal, own, -⟩ := Option.map_eq_some_iff.mp isRow
    have absent : t.find? i.mask i.value = none := by
      rw [Option.eq_none_iff_forall_ne_some]
      intro q found
      obtain ⟨earlier, listed, mask, value⟩ := before.exists_find?_iff.mp ⟨q, found⟩
      rw [split, List.pairwise_append] at distinct
      exact distinct.2.2 earlier listed _ List.mem_cons_self (by rw [mask, value])
    exact ⟨⟨insertRow { mask := i.mask, value := i.value, ordinal, rule } t.rows⟩, by
      simp only [add, own, absent]⟩

/-! ## Rows -/

theorem insertRow_perm (p : Probe) (rows : List Probe) : (insertRow p rows).Perm (p :: rows) := by
  induction rows with
  | nil => exact .refl _
  | cons q rest ih =>
    unfold insertRow
    split
    · exact .refl _
    · exact (ih.cons q).trans (.swap p q rest)

/-- A row whose key is new is put where it keeps the order. -/
theorem insertRow_pairwise {p : Probe} {rows : List Probe}
    (sorted : rows.Pairwise fun p q => p.before q = true) (new : ∀ q ∈ rows, q.key ≠ p.key) :
    (insertRow p rows).Pairwise fun p q => p.before q = true := by
  induction rows with
  | nil => exact List.pairwise_singleton _ _
  | cons q rest ih =>
    obtain ⟨first, later⟩ := List.pairwise_cons.mp sorted
    rw [List.forall_mem_cons] at new
    unfold insertRow
    split
    · rename_i before
      refine List.pairwise_cons.mpr ⟨fun r member => ?_, sorted⟩
      rcases List.mem_cons.mp member with rfl | member
      · exact before
      · exact Probe.before_trans before (first r member)
    · rename_i not
      refine List.pairwise_cons.mpr ⟨fun r member => ?_, ih later new.2⟩
      rcases List.mem_cons.mp ((insertRow_perm p rest).mem_iff.mp member) with rfl | member
      · exact Probe.before_of_not_before new.1 not
      · exact first r member

/-- The rows of a table that is built are those of its items, in ascending order. -/
theorem rows_of_build (run : build numbering items = .ok t) :
    (t.rows.Pairwise fun p q => p.before q = true) ∧
      (t.rows.map some).Perm (items.map (row? numbering)) := by
  refine foldlM_invariant (fun done (t : ProbeTable) =>
    (t.rows.Pairwise fun p q => p.before q = true) ∧
      (t.rows.map some).Perm (done.map (row? numbering))) ⟨.nil, .nil⟩ ?_ run
  rintro done item t t' ⟨sorted, perm⟩ added
  obtain ⟨p, isRow, absent, rfl⟩ := add_eq_ok added
  obtain ⟨_, -, rfl⟩ := Option.map_eq_some_iff.mp isRow
  refine ⟨insertRow_pairwise sorted fun q member same => ?_, ?_⟩
  · obtain ⟨mask, value⟩ := Prod.mk.inj same
    exact List.find?_eq_none.mp absent q member
      (Bool.and_eq_true_iff.mpr ⟨beq_iff_eq.mpr mask, beq_iff_eq.mpr value⟩)
  · rw [List.map_append, List.map_singleton, isRow]
    exact ((insertRow_perm _ t.rows).map some).trans
      ((perm.cons _).trans (List.perm_append_singleton _ _).symm)

theorem mem_rows_of_build (run : build numbering items = .ok t) {p : Probe} :
    p ∈ t.rows ↔ ∃ item ∈ items, row? numbering item = some p := by
  have listed : p ∈ t.rows ↔ some p ∈ t.rows.map some := by simp
  rw [listed, (rows_of_build run).2.mem_iff, List.mem_map]

/-- There are as many rows as items. -/
theorem size_of_build (run : build numbering items = .ok t) : t.size = items.length := by
  have same := (rows_of_build run).2.length_eq
  rwa [List.length_map, List.length_map] at same

end ProbeTable

end DecodeTables
