import DecodeTables.Proofs.Reordering
import DecodeTables.Proofs.RoundTrip
import Mathlib

/-!
# Reading a disassembly

The text of a decoded word is the identifier of its instruction and a part for each operand, with a
blank in front of each part (`Table.toList_disassemble`). No part holds a blank. So if no identifier
does, the text can be cut at its blanks (`splitOn_parts`): the first piece names the instruction, the
others are its operands in the order of the slots, and they are the word wherever every field is read
(`eq_of_disassemble_eq`).
-/

namespace DecodeTables

/-- Pieces behind blanks are found again by cutting at blanks. -/
theorem splitOn_parts {first : List Char} {parts : List (List Char)} (blankless : ' ' ∉ first)
    (all : ∀ part ∈ parts, ' ' ∉ part) :
    (first ++ parts.flatMap (' ' :: ·)).splitOn ' ' = first :: parts := by
  induction parts generalizing first with
  | nil => rw [List.flatMap_nil, List.append_nil, List.splitOn_eq_singleton blankless]
  | cons part parts ih =>
    obtain ⟨here, there⟩ := List.forall_mem_cons.mp all
    rw [List.flatMap_cons, List.cons_append, List.splitOn_append_cons_self_of_not_mem blankless,
      ih here there]

/-! ## Numbers -/

theorem blank_notMem_repr (n : Nat) : ' ' ∉ n.repr.toList := by
  rw [Nat.toList_repr]
  intro member
  exact absurd (Nat.isDigit_of_mem_toDigits (by decide) (by decide) member) (by decide)

theorem blank_notMem_intRepr (value : Int) : ' ' ∉ value.repr.toList := by
  cases value with
  | ofNat n => exact blank_notMem_repr n
  | negSucc n =>
    rw [Int.repr, String.toList_append, List.mem_append, not_or]
    exact ⟨by decide, blank_notMem_repr _⟩

/-! ## Operands -/

/-- How a register is shown. -/
def registerPart (slot : String) (index : Nat) : List Char := (slot ++ "=x" ++ index.repr).toList

/-- How an immediate is shown. -/
def immediatePart (value : Int) : List Char := ("imm=" ++ value.repr).toList

/-- The operands that are present, as they are shown. -/
def Operands.parts (operands : Operands) : List (List Char) :=
  (operands.rd.map (registerPart "rd")).toList ++ ((operands.rs1.map (registerPart "rs1")).toList ++
    ((operands.rs2.map (registerPart "rs2")).toList ++ (operands.imm.map immediatePart).toList))

theorem registerPart_injective (slot : String) : Function.Injective (registerPart slot) := by
  intro m n same
  exact Nat.repr_injective ((String.append_right_inj _).mp (String.toList_inj.mp same))

theorem immediatePart_injective : Function.Injective immediatePart := by
  intro m n same
  exact Int.repr_injective ((String.append_right_inj _).mp (String.toList_inj.mp same))

theorem blank_notMem_registerPart {slot : String} (blankless : ' ' ∉ slot.toList) (index : Nat) :
    ' ' ∉ registerPart slot index := by
  rw [registerPart, String.toList_append, String.toList_append, List.mem_append, List.mem_append,
    not_or, not_or]
  exact ⟨⟨blankless, by decide⟩, blank_notMem_repr index⟩

theorem blank_notMem_immediatePart (value : Int) : ' ' ∉ immediatePart value := by
  rw [immediatePart, String.toList_append, List.mem_append, not_or]
  exact ⟨by decide, blank_notMem_intRepr value⟩

theorem Operands.blank_notMem_parts (operands : Operands) :
    ∀ part ∈ operands.parts, ' ' ∉ part := by
  intro part member
  simp only [parts, List.mem_append, Option.mem_toList, Option.map_eq_some_iff] at member
  rcases member with ⟨index, -, rfl⟩ | ⟨index, -, rfl⟩ | ⟨index, -, rfl⟩ | ⟨value, -, rfl⟩
  · exact blank_notMem_registerPart (by decide) index
  · exact blank_notMem_registerPart (by decide) index
  · exact blank_notMem_registerPart (by decide) index
  · exact blank_notMem_immediatePart value

/-- A part that is present in both of two lists or in neither can be taken off. -/
theorem optionPart_append_inj {α β : Type} {f : α → β} (injective : Function.Injective f)
    {a b : Option α} (present : a.isSome = b.isSome) {xs ys : List β}
    (same : (a.map f).toList ++ xs = (b.map f).toList ++ ys) : a = b ∧ xs = ys := by
  cases a with
  | none =>
    cases b with
    | none => exact ⟨rfl, same⟩
    | some _ => cases present
  | some x =>
    cases b with
    | none => cases present
    | some y =>
      obtain ⟨head, tail⟩ := List.cons.inj same
      exact ⟨congrArg some (injective head), tail⟩

/-- What a rule reads from two words is the same if it is shown the same, since the rule decides which
operands are present. -/
theorem Rule.extract_eq_of_parts {rule : Rule} {w w' : Word}
    (same : (rule.extract w).parts = (rule.extract w').parts) :
    rule.extract w = rule.extract w' := by
  have filled := rule.filledBy_extract w
  have filled' := rule.filledBy_extract w'
  obtain ⟨rd, same⟩ := optionPart_append_inj (registerPart_injective "rd")
    (filled.rd.trans filled'.rd.symm) same
  obtain ⟨rs1, same⟩ := optionPart_append_inj (registerPart_injective "rs1")
    (filled.rs1.trans filled'.rs1.symm) same
  obtain ⟨rs2, same⟩ := optionPart_append_inj (registerPart_injective "rs2")
    (filled.rs2.trans filled'.rs2.symm) same
  obtain ⟨imm, -⟩ := optionPart_append_inj immediatePart_injective
    (Bool.eq_iff_iff.mpr (filled.imm.trans filled'.imm.symm)) (congrArg (· ++ []) same)
  cases hw : rule.extract w
  cases hw' : rule.extract w'
  simp_all

/-! ## Texts -/

theorem toList_registerText (slot : String) (register : Option Nat) :
    (Table.registerText slot register).toList =
      (register.map (registerPart slot)).toList.flatMap (' ' :: ·) := by
  cases register with
  | none => rfl
  | some index =>
    have text : Table.registerText slot (some index) = " " ++ slot ++ "=x" ++ index.repr := rfl
    simp [text, registerPart]

theorem toList_immediateText (imm : Option Int) :
    (Table.immediateText imm).toList = (imm.map immediatePart).toList.flatMap (' ' :: ·) := by
  cases imm with
  | none => rfl
  | some value =>
    have text : Table.immediateText (some value) = " imm=" ++ value.repr := rfl
    simp [text, immediatePart]

theorem Table.toList_disassemble (t : Table) (d : Decoded) : (t.disassemble d).toList =
    (t.name d.ordinal).toList ++ d.operands.parts.flatMap (' ' :: ·) := by
  simp only [disassemble, Operands.parts, String.toList_append, List.flatMap_append,
    toList_registerText, toList_immediateText, List.append_assoc]

/-- Instructions that decode two words as the same text have the same name, and the operands read the
same. -/
theorem Table.parts_of_disassemble {t : Table} {d d' : Decoded}
    (blankless : ' ' ∉ (t.name d.ordinal).toList) (blankless' : ' ' ∉ (t.name d'.ordinal).toList)
    (same : t.disassemble d = t.disassemble d') :
    t.name d.ordinal = t.name d'.ordinal ∧ d.operands.parts = d'.operands.parts := by
  have cut := splitOn_parts blankless d.operands.blank_notMem_parts
  rw [← Table.toList_disassemble, same, Table.toList_disassemble,
    splitOn_parts blankless' d'.operands.blank_notMem_parts] at cut
  obtain ⟨name, parts⟩ := List.cons.inj cut
  exact ⟨String.toList_inj.mp name.symm, parts.symm⟩

/-- Words that an instruction matches are the same if the same operands are read from them, unless it
has a field that no slot reads. -/
theorem Instruction.eq_of_extract_eq {i : Instruction} {rule : Rule} {w w' : Word}
    (derived : Rule.ofFields? i.fields = some rule) (allRead : ∀ f ∈ Rule.unread, f ∉ i.fields)
    (carried : i.isMatch w = true) (carried' : i.isMatch w' = true)
    (same : rule.extract w = rule.extract w') : w = w' := by
  have held {v : Word} (carried : i.isMatch v = true) :
      v = i.value ||| rule.place (rule.extract v) &&& ~~~i.mask := by
    rw [← and_or_bits carried, mask_or_bits derived allRead, BitVec.and_allOnes]
  rw [held carried, held carried', same]

/-- Two words with the same text are the same word, in a table whose identifiers hold no blank and
whose instructions have no field that no slot reads. -/
theorem eq_of_disassemble_eq {order : TrialOrder} {instructions : List Instruction} {t : Table}
    (built : Table.ofInstructions order instructions = .ok t)
    (blankless : ∀ i ∈ instructions, ' ' ∉ i.id.toList)
    (allRead : ∀ i ∈ instructions, ∀ f ∈ [Field.rs3, .rm, .aq, .rl], f ∉ i.fields)
    {raw raw' : Word} {d d' : Decoded} (decoded : t.decode raw = .ok d)
    (decoded' : t.decode raw' = .ok d') (same : t.disassemble d = t.disassemble d') :
    raw = raw' := by
  have table := Table.derivedFrom_of_ofInstructions built
  obtain ⟨i, rule, wins, derived, read⟩ := table.decode_eq_ok_iff.mp decoded
  obtain ⟨j, rule', wins', derived', read'⟩ := table.decode_eq_ok_iff.mp decoded'
  have member : i ∈ instructions := List.mem_of_getElem? wins.listed
  have member' : j ∈ instructions := List.mem_of_getElem? wins'.listed
  have named := table.name_eq wins.listed
  have named' := table.name_eq wins'.listed
  obtain ⟨name, parts⟩ := Table.parts_of_disassemble (named ▸ blankless i member)
    (named' ▸ blankless j member') same
  -- The name is that of one instruction, so both words are read by its rule.
  have ordinal := table.ordinal_of_name wins.listed wins'.listed name
  obtain rfl := Option.some.inj (wins.listed.symm.trans (ordinal ▸ wins'.listed))
  obtain rfl := Option.some.inj (derived.symm.trans derived')
  rw [read, read'] at parts
  exact Instruction.eq_of_extract_eq derived (allRead i member) wins.isMatch wins'.isMatch
    (Rule.extract_eq_of_parts parts)

/-- The word that a branch is encoded as is the one that was disassembled as this branch. -/
theorem eq_of_disassemble_eq_branch : ∃ t d w d',
    Table.ofInstructions .specificity Overlapping.instructions = .ok t ∧
      t.decode 0xfe418ce3 = .ok d ∧ t.disassemble d = "beq rs1=x3 rs2=x4 imm=-8" ∧
      Overlapping.beq.encode? { rs1 := some 3, rs2 := some 4, imm := some (-8) } = some w ∧
      t.decode w = .ok d' ∧ t.disassemble d' = "beq rs1=x3 rs2=x4 imm=-8" ∧ 0xfe418ce3 = w := by
  obtain ⟨t, built⟩ := Overlapping.exists_table
  have table := Table.derivedFrom_of_ofInstructions built
  have decoded := Overlapping.decode_beq table
  have text : t.disassemble
      ⟨0xfe418ce3, 2, { rs1 := some 3, rs2 := some 4, imm := some (-8) }⟩ =
        "beq rs1=x3 rs2=x4 imm=-8" := by
    rw [Table.disassemble, table.name_eq Overlapping.wins_beq.listed]
    decide +kernel
  have encoded : Overlapping.beq.encode? { rs1 := some 3, rs2 := some 4, imm := some (-8) } =
      some 0xfe418ce3 := by decide
  exact ⟨t, _, _, _, built, decoded, text, encoded, decoded, text,
    eq_of_disassemble_eq built (by decide) (by decide) decoded decoded (text.trans text.symm)⟩

end DecodeTables
