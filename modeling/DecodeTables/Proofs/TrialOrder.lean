import DecodeTables.Proofs.Word
import DecodeTables.TrialOrder

/-!
# Trial orders are strict

`TrialOrder.Before` is the strict order that a trial order stands for. It leaves no two masks
unranked, so masks have one sorted list (`eq_sort_iff`). That list is strict if the masks are
distinct (`sort_pairwise_before`), and the place of a mask in it then tells the order
(`lt_iff_before`).
-/

namespace DecodeTables.TrialOrder

/-- A mask is tried before another one. -/
def Before : TrialOrder → Word → Word → Prop
  | specificity, a, b => b.ones < a.ones ∨ a.ones = b.ones ∧ b < a
  | numericDescending, a, b => b < a

instance : (order : TrialOrder) → (a b : Word) → Decidable (order.Before a b)
  | specificity, a, b => inferInstanceAs (Decidable (b.ones < a.ones ∨ a.ones = b.ones ∧ b < a))
  | numericDescending, a, b => inferInstanceAs (Decidable (b < a))

variable {order : TrialOrder} {a b c : Word} {masks : List Word}

theorem Before.irrefl (order : TrialOrder) (a : Word) : ¬ order.Before a a := by
  cases order with
  | specificity =>
    rintro (fewer | ⟨-, smaller⟩)
    · exact Nat.lt_irrefl _ fewer
    · exact BitVec.lt_irrefl a smaller
  | numericDescending => exact BitVec.lt_irrefl a

theorem Before.trans (first : order.Before a b) (second : order.Before b c) : order.Before a c := by
  cases order with
  | specificity =>
    simp only [Before, BitVec.lt_def] at first second ⊢
    omega
  | numericDescending => exact BitVec.lt_trans second first

theorem Before.asymm (first : order.Before a b) : ¬ order.Before b a :=
  fun second => Before.irrefl order a (first.trans second)

instance (order : TrialOrder) : Std.Asymm order.Before := ⟨fun _ _ => Before.asymm⟩

/-- Masks that neither order ranks are equal. -/
theorem eq_of_not_before (first : ¬ order.Before a b) (second : ¬ order.Before b a) : a = b := by
  cases order with
  | specificity =>
    simp only [Before, BitVec.lt_def] at first second
    exact BitVec.eq_of_toNat_eq (by omega)
  | numericDescending =>
    simp only [Before, BitVec.lt_def] at first second
    exact BitVec.eq_of_toNat_eq (by omega)

/-- What sorting compares by is that the other mask is not before. -/
theorem le_iff : order.le a b = true ↔ ¬ order.Before b a := by
  cases order with
  | specificity =>
    simp only [le, Before, Bool.or_eq_true, Bool.and_eq_true, decide_eq_true_eq, beq_iff_eq,
      BitVec.lt_def, BitVec.le_def]
    omega
  | numericDescending =>
    simp only [le, Before, decide_eq_true_eq, BitVec.not_lt]

theorem le_trans (first : order.le a b = true) (second : order.le b c = true) :
    order.le a c = true := by
  rw [le_iff] at first second ⊢
  intro back
  by_cases step : order.Before b a
  · exact first step
  · by_cases step' : order.Before a b
    · exact second (back.trans step')
    · exact second (eq_of_not_before step step' ▸ back)

theorem le_total (order : TrialOrder) (a b : Word) : (order.le a b || order.le b a) = true := by
  rw [Bool.or_eq_true, le_iff, le_iff]
  by_cases step : order.Before b a
  · exact .inr step.asymm
  · exact .inl step

theorem le_antisymm (first : order.le a b = true) (second : order.le b a = true) : a = b :=
  eq_of_not_before (le_iff.mp second) (le_iff.mp first)

/-- A mask that has all bits of another one and more is tried before it, in either order. -/
theorem before_of_and_eq (order : TrialOrder) (within : b &&& a = b) (ne : b ≠ a) :
    order.Before a b := by
  have less : b < a := BitVec.lt_of_le_ne (Word.le_of_and_eq within) ne
  cases order with
  | specificity => exact .inl (Word.ones_lt_of_and_eq within ne)
  | numericDescending => exact less

/-! ## Sorting -/

theorem sort_perm (order : TrialOrder) (masks : List Word) : (order.sort masks).Perm masks :=
  List.mergeSort_perm masks order.le

theorem mem_sort : a ∈ order.sort masks ↔ a ∈ masks :=
  (sort_perm order masks).mem_iff

theorem sort_nil (order : TrialOrder) : order.sort [] = [] :=
  List.mergeSort_nil

theorem sort_singleton (order : TrialOrder) (a : Word) : order.sort [a] = [a] :=
  List.mergeSort_singleton a

theorem sort_pairwise_le (order : TrialOrder) (masks : List Word) :
    (order.sort masks).Pairwise fun x y => order.le x y = true :=
  @List.pairwise_mergeSort Word order.le (fun _ _ _ => le_trans) (le_total order) masks

/-- The comparison leaves one ordered permutation of the masks, whether or not some repeat. -/
theorem eq_sort_iff {sorted : List Word} : sorted = order.sort masks ↔
    sorted.Perm masks ∧ sorted.Pairwise fun x y => order.le x y = true := by
  constructor
  · rintro rfl
    exact ⟨sort_perm order masks, sort_pairwise_le order masks⟩
  · rintro ⟨perm, ordered⟩
    exact (perm.trans (sort_perm order masks).symm).eq_of_pairwise
      (fun _ _ _ _ => le_antisymm) ordered (sort_pairwise_le order masks)

/-- Masks are sorted into the same list in whatever order they come. -/
theorem sort_eq_of_perm {masks' : List Word} (perm : masks.Perm masks') :
    order.sort masks = order.sort masks' :=
  eq_sort_iff.mpr ⟨(sort_perm order masks).trans perm, sort_pairwise_le order masks⟩

/-- Distinct masks are sorted into strict order. -/
theorem sort_pairwise_before (distinct : masks.Nodup) :
    (order.sort masks).Pairwise order.Before := by
  have nodup : (order.sort masks).Nodup := (sort_perm order masks).nodup_iff.mpr distinct
  refine List.Pairwise.imp₂ ?_ (sort_pairwise_le order masks) nodup
  intro x y le ne
  rw [le_iff] at le
  exact Classical.byContradiction fun not => ne (eq_of_not_before not le)

/-- In a list in strict order, an earlier place is an earlier mask. -/
theorem lt_iff_before (sorted : masks.Pairwise order.Before) {i j : Nat}
    (atFirst : masks[i]? = some a) (atSecond : masks[j]? = some b) :
    i < j ↔ order.Before a b := by
  have forward {i j : Nat} {a b : Word} (atFirst : masks[i]? = some a)
      (atSecond : masks[j]? = some b) (lt : i < j) : order.Before a b := by
    obtain ⟨hi, rfl⟩ := List.getElem?_eq_some_iff.mp atFirst
    obtain ⟨hj, rfl⟩ := List.getElem?_eq_some_iff.mp atSecond
    exact List.pairwise_iff_getElem.mp sorted i j hi hj lt
  refine ⟨forward atFirst atSecond, fun before => ?_⟩
  rcases Nat.lt_trichotomy i j with lt | rfl | gt
  · exact lt
  · rw [atFirst] at atSecond
    exact absurd (Option.some.inj atSecond ▸ before) (Before.irrefl order a)
  · exact absurd (forward atSecond atFirst gt) before.asymm

/-- Of masks in strict order, the first that succeeds is the one before which none succeeds. -/
theorem findSome?_eq_some_iff {α : Type} {f : Word → Option α} {d : α}
    (sorted : masks.Pairwise order.Before) : masks.findSome? f = some d ↔
      ∃ a ∈ masks, f a = some d ∧ ∀ b ∈ masks, order.Before b a → f b = none := by
  rw [List.findSome?_eq_some_iff]
  constructor
  · rintro ⟨front, a, back, rfl, found, failed⟩
    refine ⟨a, List.mem_append_right _ List.mem_cons_self, found, fun b member before => ?_⟩
    rcases List.mem_append.mp member with member | member
    · exact failed b member
    · rcases List.mem_cons.mp member with rfl | member
      · exact absurd before (Before.irrefl order b)
      · have behind := List.rel_of_pairwise_cons (List.pairwise_append.mp sorted).2.1 member
        exact absurd before behind.asymm
  · rintro ⟨a, member, found, failed⟩
    obtain ⟨front, back, rfl⟩ := List.append_of_mem member
    refine ⟨front, a, back, rfl, found, fun b inFront => ?_⟩
    have before := (List.pairwise_append.mp sorted).2.2 b inFront a List.mem_cons_self
    exact failed b (List.mem_append_left _ inFront) before

end DecodeTables.TrialOrder
