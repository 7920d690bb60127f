import DecodeTables.Proofs.Emitted.LookupModule

/-!
# Masks in emitted sources

Every decoder lists masks with commas between them, each in its own way of writing words and cut into
rows where there are many. Whatever the way, the masks are read back (`words?_commaTokens`), and rows
put together are the list that was cut (`flatten_rows`).
-/

namespace DecodeTables.Emitted

open Artifact Text

/-! ## Rows -/

section

variable {α : Type}

theorem flatten_take_drop (items : List α) (count : Nat) :
    ((List.range count).map fun row => (items.drop (row * rowLength)).take rowLength).flatten =
      items.take (count * rowLength) := by
  induction count with
  | zero => rw [Nat.zero_mul, List.take_zero]; rfl
  | succ count ih =>
    rw [List.range_succ, List.map_append, List.flatten_append, ih, List.map_singleton,
      List.flatten_singleton, Nat.succ_mul, List.take_add]

/-- Rows put together are the list that was cut. -/
theorem flatten_rows (items : List α) : (rows items).flatten = items := by
  rw [rows, flatten_take_drop, List.take_of_length_le]
  unfold rowLength
  omega

theorem ne_nil_of_mem_rows {items row : List α} (member : row ∈ rows items) : row ≠ [] := by
  obtain ⟨index, bound, rfl⟩ := List.mem_map.mp member
  rw [List.mem_range] at bound
  rw [← List.length_pos_iff, List.length_take, List.length_drop]
  unfold rowLength at bound ⊢
  omega

end

/-! ## Words -/

theorem word?_toNat (w : Word) : words?.word? w.toNat = some w := by
  rw [words?.word?, if_pos w.isLt, BitVec.ofNat_toNat, BitVec.setWidth_eq]

variable {write : Word → String}

section

variable (read : ∀ w, numeral? (write w) = some w.toNat)
include read

theorem bind_word? (w : Word) : (numeral? (write w)).bind words?.word? = some w := by
  rw [read, Option.bind_some, word?_toNat]

theorem words?_cons (mask : Word) {masks : List Word} {later : List Token}
    (rest : words? later = some masks) :
    words? (.word (write mask) :: .mark ',' :: later) = some (mask :: masks) := by
  rw [words?, bind_word? read, rest]
  rfl

/-- A comma may stand behind the last word. -/
theorem words?_flatMap (masks : List Word) :
    words? (masks.flatMap fun mask => [.word (write mask), .mark ',']) = some masks := by
  induction masks with
  | nil => rfl
  | cons mask masks ih => exact words?_cons read mask ih

theorem words?_commaTokens (masks : List Word) :
    words? (commaTokens (masks.map write)) = some masks := by
  match masks with
  | [] => rfl
  | [mask] =>
    have single : commaTokens ([mask].map write) = [.word (write mask)] := rfl
    rw [single, words?, bind_word? read]
    rfl
  | mask :: second :: masks => exact words?_cons read mask (words?_commaTokens (second :: masks))

end

theorem isSpelled_masks (areWords : ∀ w, IsWord (write w)) (masks : List Word) :
    IsSpelled (commas (masks.map write)) (commaTokens (masks.map write)) := by
  have each := isSpelled_commas fun mask (_ : mask ∈ masks) => (areWords mask).isSpelled
  rwa [commaTokens, List.map_map]

/-- Rows that end in commas, but for the last one, are a list with commas between its items. -/
theorem tokens_separatedRows (areWords : ∀ w, IsWord (write w)) (masks : List Word) :
    (separated ((rows masks).map fun row => indent 1 (commas (row.map write)))).flatMap tokens =
      commaTokens (masks.map write) := by
  rw [tokens_separated fun row _ => (isSpelled_masks areWords row).indent 1]
  let item (mask : Word) : List Token := [.word (write mask)]
  have rowTokens (row : List Word) : commaTokens (row.map write) = joinTokens (row.map item) := by
    rw [commaTokens, List.map_map]
    rfl
  have filled : ∀ row ∈ (rows masks).map (List.map item), row ≠ [] := by
    intro row member
    obtain ⟨cut, listed, rfl⟩ := List.mem_map.mp member
    exact mt List.map_eq_nil_iff.mp (ne_nil_of_mem_rows listed)
  have joined := joinTokens_flatten filled
  rw [List.map_map, ← List.map_flatten, flatten_rows] at joined
  simp only [rowTokens]
  exact joined

end DecodeTables.Emitted
