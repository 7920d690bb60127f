import DecodeTables.Proofs.TrialOrder
import Mathlib.Data.List.Pairwise

/-!
# Sorted masks

Sorting has one result for masks that are the same up to their order. The results of two trial
orders differ where the orders compare some two of the masks differently (`sort_eq_sort_iff`). That
never happens where one mask has all bits of the other: both orders then go by inclusion
(`le_iff_of_comparable`), and masks that are comparable throughout are sorted alike
(`sort_canonical`).
-/

namespace DecodeTables

namespace Word

/-- All bits of a mask are bits of another one, which has more. -/
def StrictlyWithin (a b : Word) : Prop := a &&& b = a ∧ a ≠ b

/-- One of two masks has all bits of the other. -/
def Comparable (a b : Word) : Prop := a &&& b = a ∨ b &&& a = b

instance : DecidableRel Comparable :=
  fun a b => inferInstanceAs (Decidable (a &&& b = a ∨ b &&& a = b))

theorem Comparable.refl (a : Word) : a.Comparable a := .inl BitVec.and_self

instance : Std.Symm Comparable where
  symm _ _ comparable := Or.symm comparable

end Word

namespace TrialOrder

variable {order other : TrialOrder} {a b : Word} {masks : List Word}

/-! ## Inclusion -/

/-- A mask may be tried before those whose bits it all has. -/
theorem le_of_and_eq (order : TrialOrder) (within : b &&& a = b) : order.le a b = true := by
  rw [le_iff]
  intro before
  by_cases same : b = a
  · exact Before.irrefl order a (same ▸ before)
  · exact (before_of_and_eq order within same).asymm before

theorem le_refl (order : TrialOrder) (a : Word) : order.le a a = true :=
  le_of_and_eq order BitVec.and_self

/-- Every order compares comparable masks by inclusion, with the larger one first. -/
theorem le_iff_of_comparable (comparable : a.Comparable b) :
    order.le a b = true ↔ b &&& a = b := by
  refine ⟨fun le => ?_, le_of_and_eq order⟩
  rcases comparable with inside | outside
  · have back : order.le b a = true := le_of_and_eq order inside
    rw [le_antisymm le back, BitVec.and_self]
  · exact outside

/-- No mask is sorted behind one that is strictly within it. -/
theorem sort_pairwise_not_strictlyWithin (order : TrialOrder) (masks : List Word) :
    (order.sort masks).Pairwise fun a b => ¬ a.StrictlyWithin b := by
  refine (sort_pairwise_le order masks).imp fun {a b} le inside => ?_
  have back : order.le b a = true := le_of_and_eq order inside.1
  exact inside.2 (le_antisymm le back)

/-! ## Two orders -/

/-- Masks that may be tried in this order may be tried in reverse only if they are equal. -/
theorem le_swap_eq (le : order.le a b = true) : order.le b a = decide (a = b) := by
  by_cases same : a = b
  · rw [decide_eq_true same, same, le_refl]
  · rw [decide_eq_false same, Bool.eq_false_iff]
    exact fun back => same (le_antisymm le back)

/-- A list that is sorted by two orders has only masks that both compare in the same way. -/
theorem le_eq_of_sort_eq (same : order.sort masks = other.sort masks) (member : a ∈ masks)
    (member' : b ∈ masks) : order.le a b = other.le a b := by
  have ordered : (order.sort masks).Pairwise fun a b =>
      order.le a b = true ∧ other.le a b = true :=
    (sort_pairwise_le order masks).and (same ▸ sort_pairwise_le other masks)
  -- The masks may stand in the list in either order, or at the same place.
  refine List.Pairwise.forall_of_forall_of_flip (R := fun a b => order.le a b = other.le a b)
    (fun a _ => ?_) (ordered.imp fun {a b} le => ?_) (ordered.imp fun {a b} le => ?_)
    (mem_sort.mpr member) (mem_sort.mpr member')
  · rw [le_refl, le_refl]
  · rw [le.1, le.2]
  · rw [flip, le_swap_eq le.1, le_swap_eq le.2]

/-- Two orders sort masks alike exactly if they compare any two of them in the same way. -/
theorem sort_eq_sort_iff : order.sort masks = other.sort masks ↔
    ∀ a ∈ masks, ∀ b ∈ masks, order.le a b = other.le a b := by
  refine ⟨fun same a member b member' => le_eq_of_sort_eq same member member', fun alike => ?_⟩
  refine eq_sort_iff.mpr ⟨sort_perm order masks, ?_⟩
  refine (sort_pairwise_le order masks).imp_of_mem fun {a b} member member' le => ?_
  rw [← alike a (mem_sort.mp member) b (mem_sort.mp member')]
  exact le

/-- Masks that are not comparable may be sorted in two ways: the first is the larger number, the
second has more ones. -/
example : numericDescending.le 0x8000007f 0x707f = true ∧
    specificity.le 0x8000007f 0x707f = false := by decide

/-- Masks that are comparable throughout are sorted alike by all orders. -/
theorem sort_eq_sort_of_comparable (order other : TrialOrder)
    (comparable : masks.Pairwise Word.Comparable) : order.sort masks = other.sort masks := by
  have each := comparable.forall_of_forall fun a _ => Word.Comparable.refl a
  rw [sort_eq_sort_iff]
  intro a member b member'
  rw [Bool.eq_iff_iff, le_iff_of_comparable (each member member'),
    le_iff_of_comparable (each member member')]

/-- Sorting gives a permutation of the masks that is ordered by the comparison. It gives the same
list for all permutations of the masks and for the sorted list itself. In this list no mask stands
behind one that is strictly within it, and masks that are comparable throughout have the same list
under both orders. -/
theorem sort_canonical (order : TrialOrder) (masks : List Word) :
    (order.sort masks).Perm masks ∧
    (order.sort masks).Pairwise (fun a b => order.le a b = true) ∧
    (∀ others, others.Perm masks → order.sort others = order.sort masks) ∧
    order.sort (order.sort masks) = order.sort masks ∧
    (order.sort masks).Pairwise (fun a b => ¬ a.StrictlyWithin b) ∧
    (masks.Pairwise Word.Comparable → specificity.sort masks = numericDescending.sort masks) := by
  have perm : (order.sort masks).Perm masks := sort_perm order masks
  refine ⟨perm, sort_pairwise_le order masks, fun others same => ?_, ?_,
    sort_pairwise_not_strictlyWithin order masks, fun comparable => ?_⟩
  · exact sort_eq_of_perm same
  · exact sort_eq_of_perm perm
  · exact sort_eq_sort_of_comparable specificity numericDescending comparable

/-- Nested masks, one of which comes twice, are sorted by inclusion in whatever order they come. -/
theorem sort_canonical_nested :
    let masks : List Word := [0x707f, 0x7f, 0xfe00707f, 0x7f]
    specificity.sort masks = [0xfe00707f, 0x707f, 0x7f, 0x7f] ∧
    specificity.sort masks.reverse = specificity.sort masks ∧
    specificity.sort masks = numericDescending.sort masks := by
  intro masks
  obtain ⟨-, -, canonical, -, -, agree⟩ := sort_canonical specificity masks
  have sorted : [0xfe00707f, 0x707f, 0x7f, 0x7f] = specificity.sort masks :=
    eq_sort_iff.mpr ⟨by decide, by decide⟩
  exact ⟨sorted.symm, canonical masks.reverse masks.reverse_perm, agree (by decide)⟩

end TrialOrder

end DecodeTables
