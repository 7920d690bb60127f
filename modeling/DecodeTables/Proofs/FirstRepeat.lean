import DecodeTables.Proofs.FirstDefect
import Mathlib.Order.Bounds.Basic

/-!
# The first repetition

Numbering names and building a probe table both end with the first item that has something in common
with an earlier one. `repeats` are the places of such items, and `firstFault_iff_isLeast` says that
the first fault of a list is at the least of its bad places. What is built otherwise is said in full:
a numbering `Numbers` its names (`ofNames_exact`), and a probe table `Tabulates` its items under any
numbering whatever (`build_exact`).
-/

namespace DecodeTables

/-! ## Places -/

section Places

variable {α κ ε : Type} {Fault : List α → α → ε → Prop} {items front back : List α} {e : ε}

/-- The places whose item has the key of an item in front of it. -/
def repeats (key : α → κ) (items : List α) : Set Nat :=
  {n | ∃ m < n, ∃ a b, items[m]? = some a ∧ items[n]? = some b ∧ key a = key b}

theorem getElem?_length {a : α} : (front ++ a :: back)[front.length]? = some a := by
  rw [List.getElem?_append_right (Nat.le_refl _), Nat.sub_self, List.getElem?_cons_zero]

theorem length_mem_repeats_iff {key : α → κ} {a : α} :
    front.length ∈ repeats key (front ++ a :: back) ↔ key a ∈ front.map key := by
  rw [List.mem_map]
  constructor
  · intro repeated
    obtain ⟨m, before, b, c, listed, listed', same⟩ := repeated
    rw [getElem?_length, Option.some.injEq] at listed'
    rw [List.getElem?_append_left before] at listed
    exact ⟨b, List.mem_of_getElem? listed, listed' ▸ same⟩
  · intro taken
    obtain ⟨b, member, same⟩ := taken
    obtain ⟨m, before, listed⟩ := List.mem_iff_getElem.mp member
    refine ⟨m, before, b, a, ?_, getElem?_length, same⟩
    rw [List.getElem?_append_left before, List.getElem?_eq_getElem before, listed]

theorem Faultless.of_append (faultless : Faultless Fault (front ++ back)) :
    Faultless Fault front := by
  intro before item between split
  refine faultless before item (between ++ back) ?_
  rw [split, List.append_assoc, List.cons_append]

theorem faultless_concat_iff {a : α} :
    Faultless Fault (front ++ [a]) ↔ Faultless Fault front ∧ ∀ e, ¬ Fault front a e := by
  constructor
  · intro faultless
    exact ⟨faultless.of_append, faultless front a [] rfl⟩
  · intro sound before item between split
    rcases List.eq_nil_or_concat between with rfl | ⟨between, last, rfl⟩
    · obtain ⟨rfl, same⟩ := List.append_inj' split rfl
      exact (List.cons.inj same).1 ▸ sound.2
    · rw [List.concat_eq_append, ← List.cons_append, ← List.append_assoc] at split
      obtain ⟨rfl, -⟩ := List.append_inj' split rfl
      exact sound.1 before item between rfl

theorem eq_take_append_getElem {n : Nat} (bound : n < items.length) :
    items = items.take n ++ items[n] :: items.drop (n + 1) := by
  rw [List.cons_getElem_drop_succ, List.take_append_drop]

section

variable {bad : Set Nat}
  (agree : ∀ front item back, items = front ++ item :: back → Faultless Fault front →
    ((∃ e, Fault front item e) ↔ front.length ∈ bad))
include agree

/-- Where an item is at fault after faultless ones just if its place is bad, the items in front of a
place are faultless if no place before it is bad. -/
theorem faultless_take_iff {n : Nat} (bound : n ≤ items.length) :
    Faultless Fault (items.take n) ↔ ∀ m < n, m ∉ bad := by
  induction n with
  | zero => exact ⟨fun _ _ before => absurd before (Nat.not_lt_zero _),
      fun _ before item between split => by simp at split⟩
  | succ n ih =>
    have place : (items.take n).length = n := List.length_take_of_le (Nat.le_of_succ_le bound)
    rw [List.take_succ_eq_append_getElem bound, faultless_concat_iff,
      Nat.forall_lt_succ_right, ← ih (Nat.le_of_succ_le bound)]
    refine and_congr_right fun faultless => ?_
    rw [← not_exists, agree _ _ _ (eq_take_append_getElem bound) faultless, place]

/-- The first fault of the list is then at the least bad place. -/
theorem firstFault_iff_isLeast : FirstFault Fault items e ↔
    ∃ n item, IsLeast bad n ∧ items[n]? = some item ∧ Fault (items.take n) item e := by
  constructor
  · intro first
    obtain ⟨front, item, back, rfl, faultless, fault⟩ := first
    have prior : (front ++ item :: back).take front.length = front := List.take_left
    have sound : ∀ m < front.length, m ∉ bad :=
      (faultless_take_iff agree (by simp)).mp (prior.symm ▸ faultless)
    refine ⟨front.length, item, ⟨?_, fun m member => ?_⟩, getElem?_length, prior.symm ▸ fault⟩
    · exact (agree front item back rfl faultless).mp ⟨e, fault⟩
    · exact Nat.le_of_not_lt fun before => sound m before member
  · intro placed
    obtain ⟨n, item, least, listed, fault⟩ := placed
    obtain ⟨bound, rfl⟩ := List.getElem?_eq_some_iff.mp listed
    have faultless : Faultless Fault (items.take n) :=
      (faultless_take_iff agree (Nat.le_of_lt bound)).mpr fun m before member =>
        Nat.not_le_of_lt before (least.2 member)
    exact ⟨items.take n, items[n], items.drop (n + 1), eq_take_append_getElem bound, faultless, fault⟩

end

end Places

/-! ## Numberings -/

namespace Numbering

variable {n : Numbering} {name : String} {names : List String}

/-- Names are faultless if no two of them have the same symbol. -/
theorem faultless_iff : Faultless Fault names ↔ (names.map symbol).Nodup := by
  rw [← exists_ofNames_iff]
  exact (exists_foldlM_iff (fun done (n : Numbering) => n.names = done) rfl names_of_push
    fun _ _ _ _ held => held ▸ push_eq_error_iff).symm

/-- After names with distinct symbols, something is wrong with a name if its symbol is taken. -/
theorem exists_fault_iff (distinct : (names.map symbol).Nodup) :
    (∃ e, Fault names name e) ↔ symbol name ∈ names.map symbol := by
  constructor
  · intro fault
    obtain ⟨e, fault⟩ := fault
    cases fault with
    | listedTwice listed => exact List.mem_map.mpr ⟨name, listed, rfl⟩
    | symbolTaken _ only =>
      exact List.mem_map.mpr ⟨_, (filter_key_eq_singleton_iff distinct).mp only⟩
  · intro taken
    obtain ⟨earlier, member, same⟩ := List.mem_map.mp taken
    by_cases listed : name ∈ names
    · exact ⟨_, .listedTwice listed⟩
    · exact ⟨_, .symbolTaken listed
        ((filter_key_eq_singleton_iff distinct).mpr ⟨member, same⟩)⟩

/-- A numbering gives each of the names its place in the list, and no ordinal to anything else. -/
structure Numbers (n : Numbering) (names : List String) : Prop where
  names_eq : n.names = names
  size_eq : n.size = names.length
  terminal_eq : n.terminal = names.length
  name?_eq : ∀ k, n.name? k = names[k]?
  ordinal?_eq_some_iff : ∀ name k, n.ordinal? name = some k ↔ n.name? k = some name
  ordinal?_eq_none_iff : ∀ name, n.ordinal? name = none ↔ name ∉ names

theorem ordinal?_eq_none_iff : n.ordinal? name = none ↔ name ∉ n.names :=
  List.idxOf?_eq_none_iff

theorem ordinal?_eq_some_iff {k : Nat} : n.ordinal? name = some k ↔ n.name? k = some name :=
  ⟨name?_of_ordinal?, ordinal?_of_getElem?⟩

theorem numbers_of_ofNames (run : ofNames names = .ok n) : n.Numbers names := by
  obtain rfl := names_of_ofNames run
  exact ⟨rfl, rfl, rfl, fun _ => rfl, fun _ _ => ordinal?_eq_some_iff,
    fun _ => ordinal?_eq_none_iff⟩

/-- The first fault of names is at the least place whose symbol comes twice. -/
theorem firstFault_iff {e : Defect} : FirstFault Fault names e ↔
    ∃ k name, IsLeast (repeats symbol names) k ∧ names[k]? = some name ∧
      Fault (names.take k) name e := by
  refine firstFault_iff_isLeast fun front name back split faultless => ?_
  rw [exists_fault_iff (faultless_iff.mp faultless), split, length_mem_repeats_iff]

/-- Names are numbered if no two of them have the same symbol, and then by their places. Otherwise
the first name whose symbol comes twice is refused: as listed twice, or for the sole earlier name with
that symbol. -/
theorem ofNames_exact (names : List String) :
    ((∃ n, ofNames names = .ok n) ↔ (names.map symbol).Nodup) ∧
    ((names.map symbol).Nodup → names.Nodup) ∧
    (∀ n, ofNames names = .ok n → n.Numbers names) ∧
    (∀ e, ofNames names = .error e ↔ ∃ k name, IsLeast (repeats symbol names) k ∧
      names[k]? = some name ∧ Fault (names.take k) name e) ∧
    Malformation.listedTwice.message = "identifier listed twice" ∧
    ∀ symbol earlier, (Malformation.symbolTaken symbol earlier).message =
      s!"symbol `{symbol}` is also generated for `{earlier}`" := by
  refine ⟨exists_ofNames_iff, List.Nodup.of_map symbol, fun _ => numbers_of_ofNames, fun e => ?_,
    rfl, fun _ _ => rfl⟩
  rw [ofNames_eq_error_iff, firstFault_iff]

/-- The third name is refused, though the fourth is listed twice. -/
theorem ofNames_exact_collision : ofNames ["fence.i", "add", "fence_i", "fence.i"] =
    .error (.malformed "fence_i" (.symbolTaken "FENCE_I" "fence.i")) := by
  obtain ⟨-, -, -, failed, -⟩ := ofNames_exact ["fence.i", "add", "fence_i", "fence.i"]
  have same : symbol "fence.i" = symbol "fence_i" := by decide +kernel
  have differ : symbol "fence.i" ≠ symbol "add" := by decide +kernel
  have written : symbol "fence_i" = "FENCE_I" := by decide +kernel
  rw [failed]
  refine ⟨2, "fence_i", ⟨⟨0, by decide, _, _, rfl, rfl, same⟩, fun k repeated => ?_⟩, rfl, ?_⟩
  · obtain ⟨m, before, a, b, listed, listed', shared⟩ := repeated
    by_contra small
    obtain ⟨rfl, rfl⟩ : m = 0 ∧ k = 1 := by omega
    cases listed
    cases listed'
    exact differ shared
  · rw [← written]
    exact .symbolTaken (by decide) (by decide +kernel)

end Numbering

/-! ## Probe tables -/

namespace ProbeTable

variable {numbering : Numbering} {items : List (Instruction × Rule)} {t : ProbeTable}

/-- What no two items of a probe table have in common. -/
def key (item : Instruction × Rule) : Word × Word := (item.1.mask, item.1.value)

/-- The places whose identifier has no ordinal. -/
def unnumbered (numbering : Numbering) (items : List (Instruction × Rule)) : Set Nat :=
  {n | ∃ item, items[n]? = some item ∧ item.1.id ∉ numbering.names}

theorem isSome_row?_iff {item : Instruction × Rule} :
    (row? numbering item).isSome = true ↔ item.1.id ∈ numbering.names := by
  rw [row?, Option.isSome_map, Option.isSome_iff_ne_none, Ne, Numbering.ordinal?_eq_none_iff,
    not_not]

/-- Items can be built if all are numbered and no two have the same key. -/
theorem exists_build_iff_nodup : (∃ t, build numbering items = .ok t) ↔
    (∀ item ∈ items, item.1.id ∈ numbering.names) ∧ (items.map key).Nodup := by
  rw [exists_build_iff, List.Nodup, List.pairwise_map]
  simp only [isSome_row?_iff, key]

theorem faultless_iff : Faultless (Fault numbering) items ↔
    (∀ item ∈ items, item.1.id ∈ numbering.names) ∧ (items.map key).Nodup := by
  rw [← exists_build_iff_nodup]
  exact (exists_foldlM_iff (Represents numbering) (represents_empty numbering) represents_of_add
    fun _ _ _ _ before => before.add_eq_error_iff).symm

/-- After items with distinct keys, something is wrong with an item if it has no ordinal or if its key
is taken. -/
theorem exists_fault_iff {item : Instruction × Rule} (distinct : (items.map key).Nodup) :
    (∃ e, Fault numbering items item e) ↔
      item.1.id ∉ numbering.names ∨ key item ∈ items.map key := by
  constructor
  · intro fault
    obtain ⟨e, fault⟩ := fault
    cases fault with
    | notEnumerated missing => exact .inl (Numbering.ordinal?_eq_none_iff.mp missing)
    | ambiguous _ only =>
      exact .inr (List.mem_map.mpr ⟨_, (filter_key_eq_singleton_iff distinct).mp only⟩)
  · intro bad
    cases own : numbering.ordinal? item.1.id with
    | none => exact ⟨_, .notEnumerated own⟩
    | some ordinal =>
      rcases bad with missing | taken
      · cases own.symm.trans (Numbering.ordinal?_eq_none_iff.mpr missing)
      · obtain ⟨earlier, member, same⟩ := List.mem_map.mp taken
        exact ⟨_, .ambiguous own ((filter_key_eq_singleton_iff distinct).mpr ⟨member, same⟩)⟩

/-- The first fault of items is at the least place that has no ordinal or whose key comes twice. -/
theorem firstFault_iff {e : Defect} : FirstFault (Fault numbering) items e ↔
    ∃ n item, IsLeast (unnumbered numbering items ∪ repeats key items) n ∧
      items[n]? = some item ∧ Fault numbering (items.take n) item e := by
  refine firstFault_iff_isLeast fun front item back split faultless => ?_
  have own : items[front.length]? = some item := by rw [split, getElem?_length]
  have missing : front.length ∈ unnumbered numbering items ↔ item.1.id ∉ numbering.names := by
    constructor
    · intro listed
      obtain ⟨other, listed, missing⟩ := listed
      exact Option.some.inj (listed.symm.trans own) ▸ missing
    · exact fun missing => ⟨item, own, missing⟩
  rw [exists_fault_iff (faultless_iff.mp faultless).2, Set.mem_union, missing, split,
    length_mem_repeats_iff]

/-- A probe finds the item with the mask and the literal bits: its own rule, with the ordinal that the
numbering has for its identifier. The rows are these entries in ascending order. -/
structure Tabulates (numbering : Numbering) (items : List (Instruction × Rule)) (t : ProbeTable) :
    Prop where
  find?_eq_some_iff : ∀ mask value p, t.find? mask value = some p ↔
    ∃ item ∈ items, item.1.mask = mask ∧ item.1.value = value ∧ p.mask = mask ∧ p.value = value ∧
      numbering.ordinal? item.1.id = some p.ordinal ∧ p.rule = item.2
  isSome_find?_iff : ∀ mask value, (t.find? mask value).isSome = true ↔
    ∃ item ∈ items, item.1.mask = mask ∧ item.1.value = value
  size_eq : t.size = items.length
  ascending : t.rows.Pairwise fun p q => p.mask < q.mask ∨ p.mask = q.mask ∧ p.value < q.value
  mem_rows_iff : ∀ p, p ∈ t.rows ↔ t.find? p.mask p.value = some p

theorem row?_eq_some_iff {item : Instruction × Rule} {p : Probe} :
    row? numbering item = some p ↔ p.mask = item.1.mask ∧ p.value = item.1.value ∧
      numbering.ordinal? item.1.id = some p.ordinal ∧ p.rule = item.2 := by
  rw [row?, Option.map_eq_some_iff]
  constructor
  · intro isRow
    obtain ⟨ordinal, own, rfl⟩ := isRow
    exact ⟨rfl, rfl, own, rfl⟩
  · intro parts
    obtain ⟨mask, value, own, rule⟩ := parts
    exact ⟨p.ordinal, own, by rw [← mask, ← value, ← rule]⟩

theorem tabulates_of_build (run : build numbering items = .ok t) : Tabulates numbering items t := by
  have represents := represents_of_build run
  have find (mask value : Word) (p : Probe) : t.find? mask value = some p ↔
      ∃ item ∈ items, item.1.mask = mask ∧ item.1.value = value ∧ p.mask = mask ∧ p.value = value ∧
        numbering.ordinal? item.1.id = some p.ordinal ∧ p.rule = item.2 := by
    rw [represents.find?_iff]
    refine exists_congr fun item => and_congr_right fun _ => and_congr_right fun mask =>
      and_congr_right fun value => ?_
    rw [row?_eq_some_iff, mask, value]
  refine ⟨find, fun mask value => ?_, size_of_build run,
    (rows_of_build run).1.imp Probe.before_iff.mp, fun p => ?_⟩
  · rw [Option.isSome_iff_exists, represents.exists_find?_iff]
  · rw [mem_rows_of_build run, represents.find?_iff]
    refine exists_congr fun item => and_congr_right fun _ => ?_
    constructor
    · intro isRow
      obtain ⟨mask, value, -⟩ := row?_eq_some_iff.mp isRow
      exact ⟨mask.symm, value.symm, isRow⟩
    · exact fun found => found.2.2

/-- A probe table can be built under any numbering that has all identifiers, from items that differ in
mask or literal bits, and holds just these. Otherwise the first item that has no ordinal or repeats a
key is refused: for the missing ordinal if that is so, else with the name of the sole earlier item
that has the key. -/
theorem build_exact (numbering : Numbering) (items : List (Instruction × Rule)) :
    ((∃ t, build numbering items = .ok t) ↔
      (∀ item ∈ items, item.1.id ∈ numbering.names) ∧ (items.map key).Nodup) ∧
    (∀ t, build numbering items = .ok t → Tabulates numbering items t) ∧
    (∀ e, build numbering items = .error e ↔
      ∃ n item, IsLeast (unnumbered numbering items ∪ repeats key items) n ∧
        items[n]? = some item ∧ Fault numbering (items.take n) item e) ∧
    Malformation.notEnumerated.message = "not enumerated" := by
  refine ⟨exists_build_iff_nodup, fun _ => tabulates_of_build, fun e => ?_, rfl⟩
  rw [build_eq_error_iff, firstFault_iff]

end ProbeTable

namespace Overlapping

open ProbeTable (build build_exact)

/-- A numbering in which the branch comes last. -/
def otherNumbering : Numbering := ⟨["ecall", "beq"], by decide +kernel⟩

/-- Another instruction under the identifier of the branch. -/
def namesake : Instruction := { system with id := beq.id, id_ne := beq.id_ne }

/-- The branch under an identifier that is not numbered. -/
def unlisted : Instruction := { beq with id := "blt", id_ne := by decide }

/-- Two items with one identifier share its ordinal. An item without ordinal is refused for that, also
where it repeats a key. -/
theorem build_exact_namesake : ∃ t,
    build otherNumbering [(beq, ⟨true, true, false, .b⟩), (namesake, ⟨true, false, true, .i⟩)] =
      .ok t ∧ t.size = 2 ∧
    t.find? 0x707f 0x63 = some ⟨0x707f, 0x63, 1, ⟨true, true, false, .b⟩⟩ ∧
    t.find? 0x707f 0x73 = some ⟨0x707f, 0x73, 1, ⟨true, false, true, .i⟩⟩ ∧
    build otherNumbering [(beq, ⟨true, true, false, .b⟩), (unlisted, ⟨true, true, false, .b⟩)] =
      .error (.malformed "blt" .notEnumerated) := by
  obtain ⟨built, tabulated, -⟩ := build_exact otherNumbering
    [(beq, ⟨true, true, false, .b⟩), (namesake, ⟨true, false, true, .i⟩)]
  obtain ⟨-, -, failed, -⟩ := build_exact otherNumbering
    [(beq, ⟨true, true, false, .b⟩), (unlisted, ⟨true, true, false, .b⟩)]
  obtain ⟨t, run⟩ := built.mpr (by decide)
  have tabulates := tabulated t run
  refine ⟨t, run, tabulates.size_eq, ?_, ?_, ?_⟩
  · exact (tabulates.find?_eq_some_iff _ _ _).mpr ⟨_, List.mem_cons_self, by decide⟩
  · exact (tabulates.find?_eq_some_iff _ _ _).mpr
      ⟨_, List.mem_cons_of_mem _ List.mem_cons_self, by decide⟩
  · rw [failed]
    refine ⟨1, _, ⟨.inl ⟨_, rfl, by decide⟩, fun n bad => ?_⟩, rfl, .notEnumerated (by decide)⟩
    by_contra small
    obtain rfl : n = 0 := by omega
    rcases bad with ⟨item, listed, missing⟩ | ⟨m, before, -⟩
    · cases listed
      exact missing (by decide)
    · exact absurd before (Nat.not_lt_zero m)

end Overlapping

end DecodeTables
