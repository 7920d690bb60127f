import Mathlib.Data.List.Induction
import Mathlib.Data.List.Nodup

/-!
# Lists under keys

Facts on lists of pairs that are looked up by their first part, and on lists from which repetitions are
taken. Changing the pair of a key is seen under this key only (`lookup_change`), and under distinct
keys looking up is membership (`lookup_eq_some_iff_mem`).
-/

namespace DecodeTables

variable {α β : Type} [BEq α] [LawfulBEq α] {items : List (α × β)} {k q : α} {b : β}

theorem lookup_eq_some_iff_mem (distinct : (items.map Prod.fst).Nodup) :
    items.lookup k = some b ↔ (k, b) ∈ items := by
  rw [List.lookup_eq_some_iff]
  constructor
  · intro found
    obtain ⟨front, back, rfl, -⟩ := found
    exact List.mem_append_right front List.mem_cons_self
  · intro member
    obtain ⟨front, back, rfl⟩ := List.append_of_mem member
    refine ⟨front, back, rfl, fun p inFront => ?_⟩
    rw [List.map_append, List.map_cons] at distinct
    have apart := (List.nodup_append.mp distinct).2.2 p.1 (List.mem_map_of_mem inFront) k
      List.mem_cons_self
    exact bne_iff_ne.mpr apart.symm

/-- Changing the pair of a key changes what is looked up under this key, and nothing else. -/
theorem lookup_change [DecidableEq α] (change : β → β) :
    (items.map fun p => if p.1 = k then (p.1, change p.2) else p).lookup q =
      if q = k then (items.lookup q).map change else items.lookup q := by
  induction items with
  | nil => simp
  | cons p rest ih =>
    have step (p' : α × β) (same : p'.1 = p.1) (rest' : List (α × β)) :
        (p' :: rest').lookup q = if q = p.1 then some p'.2 else rest'.lookup q := by
      rw [List.lookup_cons, same]
      by_cases own : q = p.1
      · rw [if_pos own, beq_iff_eq.mpr own]
      · rw [if_neg own, beq_eq_false_iff_ne.mpr own]
    rw [List.map_cons, step _ (by split <;> rfl), step p rfl, ih]
    split
    · rename_i own
      rw [own]
      split
      · rfl
      · rfl
    · rfl

/-- One more item comes last, unless it is listed already. -/
theorem eraseDups_append_singleton (items : List α) (a : α) :
    (items ++ [a]).eraseDups = if a ∈ items then items.eraseDups else items.eraseDups ++ [a] := by
  rw [List.eraseDups_append]
  by_cases listed : a ∈ items <;> simp [List.removeAll, listed, List.eraseDups_cons]

theorem nodup_eraseDups (items : List α) : items.eraseDups.Nodup := by
  induction items using List.reverseRecOn with
  | nil => exact .nil
  | append_singleton front a ih =>
    rw [eraseDups_append_singleton]
    split
    · exact ih
    · rename_i new
      rw [← List.concat_eq_append, List.nodup_concat, List.mem_eraseDups]
      exact ⟨new, ih⟩

theorem eraseDups_eq_self {items : List α} (distinct : items.Nodup) : items.eraseDups = items := by
  induction items using List.reverseRecOn with
  | nil => rfl
  | append_singleton front a ih =>
    rw [← List.concat_eq_append, List.nodup_concat] at distinct
    rw [eraseDups_append_singleton, if_neg distinct.1, ih distinct.2]

end DecodeTables
