import DecodeTables.Artifact.Render
import DecodeTables.Proofs.Emitted.Arms
import DecodeTables.Proofs.Emitted.ItemText

/-!
# Emitted enumerations of a table

The sources that name the instructions of a table, read off their texts. In C++ the header of
identifiers and the array of callbacks go by the same ordinals, and no name comes twice in either
(`render_items_aligned`): lower case tells symbols apart, and the terminal item has letters that no
symbol has. In Rust the terminal is a name that a symbol may be, so that variants are distinct only if
no instruction has it (`render_variants_nodup_iff`, `render_variants_collide`).
-/

namespace DecodeTables

open Artifact Emitted

/-! ## Upper and lower case -/

section Case

variable {name other : String} {c : Char}

/-- A symbol has no lower-case letters. -/
theorem isLower_of_mem_symbol (member : c ∈ (symbol name).toList) : c.isLower = false := by
  rw [symbol, String.toList_ofList] at member
  obtain ⟨d, -, rfl⟩ := List.mem_map.mp member
  split
  · exact Char.isLower_toUpper_eq_false d
  · decide

/-- Upper case undoes what a callback does to a symbol. -/
theorem symbol_eq_of_callback (same : Callbacks.callback name = Callbacks.callback other) :
    symbol name = symbol other := by
  have undone (name : String) :
      ((symbol name).toList.map Char.toLower).map Char.toUpper = (symbol name).toList := by
    rw [List.map_map, List.map_congr_left fun c member => ?_, List.map_id]
    rw [Function.comp_apply, Char.toUpper_toLower_eq_toUpper, id,
      Char.toUpper_eq_of_not_isLower (Bool.eq_false_iff.mp (isLower_of_mem_symbol member))]
  have lower := String.ofList_injective ((String.append_right_inj _).mp same)
  rw [← String.toList_inj, ← undone name, lower, undone other]

/-- The name of a callback is a name in a source. -/
theorem isWord_callback (nonempty : name ≠ "") : IsWord (Callbacks.callback name) := by
  obtain ⟨filled, inWord⟩ := isWord_symbol nonempty
  refine IsWord.append (by decide) ⟨?_, fun c member => ?_⟩
  · rw [String.toList_ofList]
    exact fun none => filled (List.map_eq_nil_iff.mp none)
  · rw [String.toList_ofList] at member
    obtain ⟨d, symbolic, rfl⟩ := List.mem_map.mp member
    rcases Bool.or_eq_true_iff.mp (inWord d symbolic) with alphanum | underscore
    · rw [isWordChar, isAlphanum_toLower alphanum, Bool.true_or]
    · rw [beq_iff_eq.mp underscore]
      decide

/-- The terminal item in C++ has a lower-case letter behind its first one. -/
theorem item_ne_terminal (name : String) : "k" ++ symbol name ≠ "kEndID" := by
  intro same
  have behind : symbol name = "EndID" := (String.append_right_inj "k").mp same
  have letter : 'n' ∈ (symbol name).toList := behind ▸ by decide
  exact absurd (isLower_of_mem_symbol letter) (by decide)

end Case

/-- A terminal behind distinct names is a name of its own unless it is one of them. -/
theorem nodup_concat_map_iff {α β : Type} {items : List α} {name : α → β} {terminal : β}
    (distinct : (items.map name).Nodup) :
    (items.map name ++ [terminal]).Nodup ↔ ∀ a ∈ items, name a ≠ terminal := by
  rw [← List.concat_eq_append, List.nodup_concat, and_iff_left distinct, List.mem_map]
  constructor
  · exact fun free a member same => free ⟨a, member, same⟩
  · intro free taken
    obtain ⟨a, member, same⟩ := taken
    exact free a member same

/-! ## Items of a table -/

namespace Table.DerivedFrom

variable {order : TrialOrder} {instructions : List Instruction} {t : Table}
  (table : DerivedFrom order instructions t)
include table

theorem items_ofTable :
    (Items.ofTable t).items = instructions.map fun i => (symbol i.id, i.id) := by
  rw [Items.ofTable, table.names_eq, List.map_map]
  rfl

theorem names_ofTable :
    (Callbacks.ofTable t).names = instructions.map fun i => Callbacks.callback i.id := by
  rw [Callbacks.ofTable, table.names_eq, List.map_map]
  rfl

theorem legibleItems : LegibleItems (Items.ofTable t) := by
  intro item member
  rw [table.items_ofTable] at member
  obtain ⟨i, -, rfl⟩ := List.mem_map.mp member
  exact isWord_symbol i.id_ne

/-- Names that tell symbols apart are distinct. -/
theorem nodup_map_id {name : String → String}
    (tells : ∀ a b, name a = name b → symbol a = symbol b) :
    (instructions.map fun i => name i.id).Nodup := by
  have distinct := List.pairwise_map.mp table.symbols_nodup
  exact List.pairwise_map.mpr (distinct.imp fun differ same => differ (tells _ _ same))

theorem isWord_of_mem_names : ∀ name ∈ (Callbacks.ofTable t).names, IsWord name := by
  intro name member
  rw [table.names_ofTable] at member
  obtain ⟨i, -, rfl⟩ := List.mem_map.mp member
  exact isWord_callback i.id_ne

end Table.DerivedFrom

/-! ## C++ -/

/-- A header and an array of callbacks that name the same instructions by the same ordinals. -/
structure Aligned (t : Table) (instructions : List Instruction) (h : ItemHeader)
    (c : CallbackTable) : Prop where
  items_eq : h.items = instructions.map (fun i => "k" ++ symbol i.id) ++ ["kEndID"]
  items_nodup : h.items.Nodup
  cases_eq : h.cases = instructions.map fun i => ("k" ++ symbol i.id, symbol i.id)
  declared_eq : c.declared = instructions.map fun i => Callbacks.callback i.id
  declared_nodup : c.declared.Nodup
  elements_eq : c.elements = c.declared
  /-- The array is as long as the terminal item says. -/
  bound_eq : h.items[instructions.length]? = some c.bound
  /-- An item and a callback stand at the ordinal of their instruction. -/
  at_ordinal : ∀ i ∈ instructions, ∃ n, t.numbering.ordinal? i.id = some n ∧
    h.items[n]? = some ("k" ++ symbol i.id) ∧ c.elements[n]? = some (Callbacks.callback i.id)

namespace Table.DerivedFrom

variable {order : TrialOrder} {instructions : List Instruction} {t : Table}
  (table : DerivedFrom order instructions t)
include table

theorem cppNames_ofTable : (Items.ofTable t).cppNames =
    instructions.map (fun i => "k" ++ symbol i.id) ++ ["kEndID"] := by
  rw [Items.cppNames, table.items_ofTable, List.map_map]
  rfl

theorem nodup_cppNames : (Items.ofTable t).cppNames.Nodup := by
  have distinct : (instructions.map fun i => "k" ++ symbol i.id).Nodup :=
    table.nodup_map_id fun _ _ same => (String.append_right_inj "k").mp same
  rw [table.cppNames_ofTable, nodup_concat_map_iff distinct]
  exact fun i _ => item_ne_terminal i.id

theorem aligned :
    Aligned t instructions (.ofItems (.ofTable t)) (.ofCallbacks (.ofTable t)) where
  items_eq := table.cppNames_ofTable
  items_nodup := table.nodup_cppNames
  cases_eq := by
    rw [ItemHeader.ofItems, table.items_ofTable, List.map_map]
    rfl
  declared_eq := table.names_ofTable
  declared_nodup := by
    rw [CallbackTable.ofCallbacks, table.names_ofTable]
    exact table.nodup_map_id fun _ _ => symbol_eq_of_callback
  elements_eq := rfl
  bound_eq := by
    rw [ItemHeader.ofItems, table.cppNames_ofTable, List.getElem?_append_right (by simp),
      List.length_map, Nat.sub_self]
    rfl
  at_ordinal := by
    intro i member
    obtain ⟨n, listed⟩ := List.mem_iff_getElem?.mp member
    refine ⟨n, table.ordinal?_eq listed, ?_, ?_⟩
    · have bound : n < (instructions.map fun i => "k" ++ symbol i.id).length := by
        rw [List.length_map]
        exact (List.getElem?_eq_some_iff.mp listed).1
      rw [ItemHeader.ofItems, table.cppNames_ofTable, List.getElem?_append_left bound,
        List.getElem?_map, listed]
      rfl
    · rw [CallbackTable.ofCallbacks, table.names_ofTable, List.getElem?_map, listed]
      rfl

end Table.DerivedFrom

/-- The sources of identifiers and of executors in C++ can be made from every table that is built, and
they go by the same ordinals. -/
theorem render_items_aligned {order : TrialOrder} {instructions : List Instruction} {t : Table}
    (built : Table.ofInstructions order instructions = .ok t) (options : Options) :
    ∃ header executor h c,
      render t .identifiers { options with target := .cpp } = .ok header ∧
      render t .executor { options with target := .cpp } = .ok executor ∧
      ItemHeader.read? options.space header.text = some h ∧
      CallbackTable.read? options.space executor.text = some c ∧
      Aligned t instructions h c := by
  have table := Table.derivedFrom_of_ofInstructions built
  refine ⟨_, _, _, _, rfl, rfl, ?_, ?_, table.aligned⟩
  · dsimp only
    exact read?_cppLines table.legibleItems options.space
  · dsimp only
    exact read?_callbackLines table.isWord_of_mem_names options.space

namespace Overlapping

/-- An instruction whose identifier is more than upper-case letters and digits. -/
def accented : Instruction := { system with id := "Fencé.i", id_ne := by decide }

/-- Every character that is no ASCII letter or digit is an underscore in the items. -/
theorem render_items_aligned_accented : ∃ t header executor h c,
    Table.ofInstructions .specificity [accented, beq] = .ok t ∧
    render t .identifiers {} = .ok header ∧ render t .executor {} = .ok executor ∧
    ItemHeader.read? "yarvs" header.text = some h ∧
    CallbackTable.read? "yarvs" executor.text = some c ∧
    h.items = ["kFENC__I", "kBEQ", "kEndID"] ∧ c.elements = ["exec_fenc__i", "exec_beq"] := by
  obtain ⟨t, built⟩ : ∃ t, Table.ofInstructions .specificity [accented, beq] = .ok t :=
    exists_of_isOk (by decide +kernel)
  obtain ⟨header, executor, h, c, rendered, rendered', read, read', aligned⟩ :=
    render_items_aligned built {}
  refine ⟨t, header, executor, h, c, built, rendered, rendered', read, read', ?_, ?_⟩
  · rw [aligned.items_eq]
    decide +kernel
  · rw [aligned.elements_eq, aligned.declared_eq]
    decide +kernel

end Overlapping

/-! ## Rust -/

/-- A module with a variant and an arm for each instruction, and the terminal behind them. -/
structure Enumerates (instructions : List Instruction) (m : VariantModule) : Prop where
  variants_eq : m.variants = (instructions.map (fun i => symbol i.id) ++ ["END"]).zipIdx
  count_eq : m.count = instructions.length
  arms_eq : m.arms =
    instructions.map (fun i => (symbol i.id, Text.quote i.id)) ++ [("END", Text.quote "END")]

/-- No instruction has the name of the terminal. -/
def TerminalFree (instructions : List Instruction) : Prop := ∀ i ∈ instructions, symbol i.id ≠ "END"

namespace Enumerates

variable {instructions : List Instruction} {m : VariantModule}
  (enumerates : Enumerates instructions m)
include enumerates

theorem variantNames_eq : m.variants.map Prod.fst =
    instructions.map (fun i => symbol i.id) ++ ["END"] := by
  rw [enumerates.variants_eq, List.zipIdx_map_fst]

/-- The arms are those of the variants. -/
theorem armNames_eq : m.arms.map Prod.fst = m.variants.map Prod.fst := by
  rw [enumerates.variantNames_eq, enumerates.arms_eq, List.map_append, List.map_map]
  rfl

/-- The terminal is a variant of its own unless an instruction has its name. -/
theorem nodup_variantNames_iff (distinct : (instructions.map fun i => symbol i.id).Nodup) :
    (m.variants.map Prod.fst).Nodup ↔ TerminalFree instructions := by
  rw [enumerates.variantNames_eq]
  exact nodup_concat_map_iff distinct

end Enumerates

theorem Table.DerivedFrom.enumerates {order : TrialOrder} {instructions : List Instruction}
    {t : Table} (table : DerivedFrom order instructions t) :
    Enumerates instructions (.ofItems (.ofTable t)) where
  variants_eq := by
    rw [VariantModule.ofItems, Items.rustNames, table.items_ofTable, List.map_map]
    rfl
  count_eq := by
    rw [VariantModule.ofItems, table.items_ofTable, List.length_map]
  arms_eq := by
    rw [VariantModule.ofItems, armItems, table.items_ofTable, List.map_append, List.map_map]
    rfl

theorem render_rustIdentifiers (t : Table) (options : Options) :
    render t .identifiers { options with target := .rust } =
      .ok ⟨"identifiers.rs", unlines (Items.ofTable t).rustLines⟩ :=
  rfl

/-- The source of identifiers in Rust can be made from every table that is built. No two instructions
have a variant or an arm in common, but the terminal has its own only if no instruction is named like
it. -/
theorem render_variants_nodup_iff {order : TrialOrder} {instructions : List Instruction} {t : Table}
    (built : Table.ofInstructions order instructions = .ok t) (options : Options) :
    ∃ source m, render t .identifiers { options with target := .rust } = .ok source ∧
      VariantModule.read? source.text = some m ∧ Enumerates instructions m ∧
      (instructions.map fun i => symbol i.id).Nodup ∧
      ((m.variants.map Prod.fst).Nodup ↔ TerminalFree instructions) ∧
      ((m.arms.map Prod.fst).Nodup ↔ TerminalFree instructions) := by
  have table := Table.derivedFrom_of_ofInstructions built
  have enumerates := table.enumerates
  have names := enumerates.nodup_variantNames_iff table.symbols_nodup
  refine ⟨_, _, render_rustIdentifiers t options, ?_, enumerates, table.symbols_nodup, names,
    enumerates.armNames_eq ▸ names⟩
  dsimp only
  exact read?_rustLines table.legibleItems

namespace Overlapping

theorem render_variants_nodup_overlapping : ∃ t source m,
    Table.ofInstructions .specificity instructions = .ok t ∧
    render t .identifiers { target := .rust } = .ok source ∧
    VariantModule.read? source.text = some m ∧
    m.variants = [("SYSTEM", 0), ("ECALL", 1), ("BEQ", 2), ("END", 3)] ∧
    (m.variants.map Prod.fst).Nodup := by
  obtain ⟨t, built⟩ := exists_table
  obtain ⟨source, m, rendered, read, enumerates, -, names, -⟩ := render_variants_nodup_iff built {}
  have free : TerminalFree instructions := by
    unfold TerminalFree
    decide +kernel
  refine ⟨t, source, m, built, rendered, read, ?_, names.mpr free⟩
  rw [enumerates.variants_eq]
  decide +kernel

/-- An instruction that is named like the terminal. -/
def ending : Instruction := { ecall with id := "end", id_ne := by decide }

/-- The terminal and an instruction have one name, with two discriminants and two arms. -/
theorem render_variants_collide : ∃ t source m,
    Table.ofInstructions .specificity [ending] = .ok t ∧
    render t .identifiers { target := .rust } = .ok source ∧
    VariantModule.read? source.text = some m ∧
    m.variants = [("END", 0), ("END", 1)] ∧
    m.arms = [("END", "\"end\""), ("END", "\"END\"")] ∧
    ¬ (m.variants.map Prod.fst).Nodup ∧ ¬ (m.arms.map Prod.fst).Nodup := by
  obtain ⟨t, built⟩ : ∃ t, Table.ofInstructions .specificity [ending] = .ok t :=
    exists_of_isOk (by decide +kernel)
  have table := Table.derivedFrom_of_ofInstructions built
  have variants : (VariantModule.ofItems (.ofTable t)).variants = [("END", 0), ("END", 1)] := by
    rw [table.enumerates.variants_eq]
    decide +kernel
  have arms : (VariantModule.ofItems (.ofTable t)).arms =
      [("END", "\"end\""), ("END", "\"END\"")] := by
    rw [table.enumerates.arms_eq]
    decide +kernel
  refine ⟨t, _, _, built, render_rustIdentifiers t {}, ?_, variants, arms, ?_, ?_⟩
  · dsimp only
    exact read?_rustLines table.legibleItems
  · rw [variants]
    decide
  · rw [arms]
    decide

end Overlapping

end DecodeTables
