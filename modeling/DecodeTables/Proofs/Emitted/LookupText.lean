import DecodeTables.Proofs.Emitted.LookupParts

/-!
# Reading an emitted lookup decoder

The text of a `LookupDecoder` says what the decoder holds. `LookupModule.ofDecoder` is the module
that is meant, and `read?_lines` reads it back from the lines, section by section.
-/

namespace DecodeTables.Emitted

open Artifact Text

def registerExpr : Expr :=
  .cast (.binary .and (.binary .shr (.name "raw") (.name "shift")) (.literal 0x1f)) .u8

def opcodeExpr : Expr := .cast (.binary .and (.name "raw") (.literal 0x7f)) .u8

/-- The module that a decoder is written as. -/
def LookupModule.ofDecoder (d : LookupDecoder) : LookupModule where
  masks := d.masks
  trials := d.trials
  functions := (if d.signed then [signFunction] else []) ++
    d.formulas.map fun e => formulaFunction e.1 e.2
  register := registerExpr
  arms := d.arms.map .ofArm
  opcode := opcodeExpr

/-- What a decoder is written from can be read: the mask table is complete, opcodes are bytes, the
functions are those of layouts, and symbols are names. -/
structure Legible (d : LookupDecoder) : Prop where
  length_masks : d.masks.length = 128
  opcode_lt : ∀ t ∈ d.trials, t.1 < 0x100
  formula?_eq : ∀ e ∈ d.formulas, formula? e.1 = some e.2
  isWord : ∀ a ∈ d.arms, IsWord a.symbol

/-! ## Sections -/

/-- The lines of the functions of a decoder, each with the function. -/
def functionTexts (d : LookupDecoder) : List (List String × Function) :=
  (if d.signed then [(signLines, signFunction)] else []) ++
    d.formulas.map fun e => (formulaLines e.1 e.2, formulaFunction e.1 e.2)

variable (d : LookupDecoder)

/-- The banner and the types, line by line. -/
theorem tokens_head :
    (Items.rustBanner ++ ["use super::InstrId;", ""] ++ LookupDecoder.typeLines).flatMap tokens =
      tokens Reader.typesText := by
  simp only [Items.rustBanner, LookupDecoder.typeLines, List.cons_append, List.nil_append,
    List.flatMap_cons, List.flatMap_nil, tokens_indent]
  repeat rw [tokens_ofList]
  rw [Reader.typesText, tokens_ofList]
  decide +kernel

/-- A constant behind a comment: its items stand line by line between the first line and the last. -/
theorem tokens_listing {comment : String} (silent : tokens comment = []) (first : String)
    (items : List String) : ([comment, first] ++ items ++ ["];"]).flatMap tokens =
      tokens first ++ (items.flatMap tokens ++ [Token.mark ']', .mark ';']) := by
  have closed : ["];"].flatMap tokens = [.mark ']', .mark ';'] := by decide
  rw [List.flatMap_append, List.flatMap_append, closed, List.flatMap_cons, List.flatMap_singleton,
    silent, List.nil_append, List.append_assoc]

theorem tokens_maskLines : d.maskLines.flatMap tokens =
    tokens "pub const MASKS: [u32; 128] = [" ++
      ((maskTokens d.masks ++ [Token.mark ']']) ++ [Token.mark ';']) := by
  have comment : tokens "/// Sole mask of each single-mask opcode, zero otherwise." = [] := by
    rw [tokens_ofList]
    decide +kernel
  have count : s!"pub const MASKS: [u32; {opcodeCount}] = [" = "pub const MASKS: [u32; 128] = [" :=
    rfl
  rw [LookupDecoder.maskLines, tokens_listing comment, tokens_maskRows, count, List.append_assoc]
  rfl

theorem tokens_trialLines : d.trialLines.flatMap tokens =
    tokens "pub const TRIALS: &[(u8, &[u32])] = &[" ++
      (d.trials.flatMap (fun t => tokens (trialLine t.1 t.2)) ++
        [Token.mark ']', .mark ';']) := by
  have comment : tokens "/// Masks probed in order for opcodes with several masks." = [] := by
    rw [tokens_ofList]
    decide +kernel
  rw [LookupDecoder.trialLines, tokens_listing comment, List.flatMap_map]
  rfl

theorem tokens_formulaLines : d.formulaLines.flatMap tokens =
    (functionTexts d).flatMap fun f => f.1.flatMap tokens := by
  have split : d.formulaLines = (functionTexts d).flatMap Prod.fst := by
    unfold LookupDecoder.formulaLines functionTexts
    rw [List.flatMap_append, List.flatMap_map]
    cases d.signed <;> rfl
  rw [split, List.flatMap_assoc]

/-- The closure for registers stands on the second line of the lookup. -/
theorem tokens_lookupLines : d.lookupLines.flatMap tokens =
    tokens "fn lookup(mask: u32, raw: u32) -> Option<Instruction> \x7b" ++
      (tokens "let reg = |shift: u32|" ++
        ((tokens "Some(((raw >> shift) & 0x1f) as u8)" ++ [Token.mark ';']) ++
          (tokens "let (id, rs1, rs2, rd, imm) = match (mask, raw & mask) \x7b" ++
            (d.arms.flatMap (fun a => tokens (LookupDecoder.armLine a)) ++
              tokens Reader.lookupEnd)))) := by
  have register : tokens "let reg = |shift: u32| Some(((raw >> shift) & 0x1f) as u8);" =
      tokens "let reg = |shift: u32|" ++
        (tokens "Some(((raw >> shift) & 0x1f) as u8)" ++ [Token.mark ';']) := by
    repeat rw [tokens_ofList]
    decide +kernel
  have closed : [indent 2 "_ => return None,", indent 1 "\x7d;",
      indent 1 "Some(Instruction \x7b raw, id, rs1, rs2, rd, imm \x7d)", "\x7d"].flatMap tokens =
        tokens Reader.lookupEnd := by
    simp only [List.flatMap_cons, List.flatMap_nil, tokens_indent]
    repeat rw [tokens_ofList]
    rw [Reader.lookupEnd, tokens_ofList]
    decide +kernel
  rw [LookupDecoder.lookupLines, List.flatMap_append, List.flatMap_append, closed, List.flatMap_map]
  simp only [List.flatMap_cons, List.flatMap_nil, tokens_indent, register, List.append_assoc,
    List.append_nil]

theorem tokens_decodeLines : LookupDecoder.decodeLines.flatMap tokens =
    tokens "pub fn decode(raw: u32) -> Result<Instruction, DecodeError> \x7b" ++
      (tokens "let opcode =" ++ ((tokens "(raw & 0x7f) as u8" ++ [Token.mark ';']) ++
        tokens Reader.dispatchText)) := by
  have opcode : tokens "let opcode = (raw & 0x7f) as u8;" =
      tokens "let opcode =" ++ (tokens "(raw & 0x7f) as u8" ++ [Token.mark ';']) := by
    repeat rw [tokens_ofList]
    decide +kernel
  have dispatch : (LookupDecoder.decodeLines.drop 2).flatMap tokens =
      tokens Reader.dispatchText := by
    simp only [LookupDecoder.decodeLines, List.drop_succ_cons, List.drop_zero, List.flatMap_cons,
      List.flatMap_nil, tokens_indent]
    repeat rw [tokens_ofList]
    rw [Reader.dispatchText, tokens_ofList]
    decide +kernel
  have split : LookupDecoder.decodeLines =
      "pub fn decode(raw: u32) -> Result<Instruction, DecodeError> \x7b" ::
        indent 1 "let opcode = (raw & 0x7f) as u8;" :: LookupDecoder.decodeLines.drop 2 := rfl
  rw [split, List.flatMap_cons, List.flatMap_cons, dispatch, tokens_indent, opcode,
    List.append_assoc]

/-! ## The module -/

theorem reads_guard {p : Prop} [Decidable p] {α : Type} {next : Unit → Reader α}
    {later : List Token} {a : α} (holds : p) (second : Reads (next ()) later a) :
    Reads ((guard p : Reader Unit) >>= next) later a := by
  rw [guard, if_pos holds]
  exact second

variable {d}

theorem reads_functionTexts (legible : Legible d) : ∀ f ∈ functionTexts d,
    Reads Reader.function (f.1.flatMap tokens) f.2 ∧
      (f.1.flatMap tokens).head? = some (.word "const") := by
  intro f member
  rcases List.mem_append.mp member with sign | formula
  · cases signed : d.signed with
    | false => simp [signed] at sign
    | true =>
      rw [signed, if_pos rfl, List.mem_singleton] at sign
      exact sign ▸ reads_signLines
  · obtain ⟨e, listed, rfl⟩ := List.mem_map.mp formula
    exact reads_formulaLines (legible.formula?_eq e listed)

theorem map_functionTexts :
    (functionTexts d).map Prod.snd = (LookupModule.ofDecoder d).functions := by
  unfold functionTexts LookupModule.ofDecoder
  rw [List.map_append, List.map_map]
  cases d.signed <;> rfl

theorem head?_append_of_eq {taken later : List Token} {t : Token} (begins : taken.head? = some t) :
    (taken ++ later).head? = some t := by
  rw [List.head?_append, begins, Option.some_or]

theorem head?_lookup :
    (tokens "fn lookup(mask: u32, raw: u32) -> Option<Instruction> \x7b").head? =
      some (.word "fn") := by
  rw [tokens_ofList]
  decide +kernel

theorem head?_lookupEnd : (tokens Reader.lookupEnd).head? = some (.word "_") := by
  rw [Reader.lookupEnd, tokens_ofList]
  decide +kernel

theorem reads_register :
    Reads (Reader.expressionUpTo ';')
      (tokens "Some(((raw >> shift) & 0x1f) as u8)" ++ [Token.mark ';'])
      (.call "Some" (.cons registerExpr .nil)) := by
  apply reads_expressionUpTo
  · rw [tokens_ofList]
    decide +kernel
  · rw [tokens_ofList]
    decide +kernel

theorem reads_opcode :
    Reads (Reader.expressionUpTo ';') (tokens "(raw & 0x7f) as u8" ++ [Token.mark ';'])
      opcodeExpr := by
  apply reads_expressionUpTo
  · rw [tokens_ofList]
    decide +kernel
  · rw [tokens_ofList]
    decide +kernel

/-- Lines without tokens stand between the sections. -/
theorem tokens_lines : d.lines.flatMap tokens = tokens Reader.typesText ++
    (d.maskLines.flatMap tokens ++ (d.trialLines.flatMap tokens ++
      (d.formulaLines.flatMap tokens ++ (d.lookupLines.flatMap tokens ++
        LookupDecoder.decodeLines.flatMap tokens)))) := by
  have append (front later : List String) :
      (front ++ later).flatMap tokens = front.flatMap tokens ++ later.flatMap tokens :=
    List.flatMap_append
  have blank (front : List String) : (front ++ [""]).flatMap tokens = front.flatMap tokens := by
    have empty : [""].flatMap tokens = [] := by decide
    rw [append, empty, List.append_nil]
  rw [LookupDecoder.lines, append, blank, append, append, blank, append, blank, append, blank,
    tokens_head]
  simp only [List.append_assoc]

theorem reads_lookupModule (legible : Legible d) :
    Reads Reader.lookupModule (d.lines.flatMap tokens) (.ofDecoder d) := by
  have functions := reads_functionTexts legible
  rw [tokens_lines, tokens_maskLines, tokens_trialLines, tokens_formulaLines, tokens_lookupLines,
    tokens_decodeLines]
  simp only [List.append_assoc]
  unfold Reader.lookupModule
  apply Reads.expect_bind rfl
  apply Reads.expect_bind rfl
  rw [← List.append_assoc (maskTokens _)]
  apply Reads.bind (Reads.upTo (mark_notMem_maskTokens (by decide) _))
  apply Reads.lift_bind (words?_maskTokens d.masks)
  apply reads_guard legible.length_masks
  apply Reads.expect_bind (by decide)
  -- Trials, functions and arms end where a token stands that none of them starts with.
  apply Reads.expect_bind rfl
  apply Reads.many_bind (fun t member => reads_trial (legible.opcode_lt t member) t.2)
    (fun t _ => by rw [tokens_trialLine]; rfl) rfl (by decide)
  apply Reads.expect_bind (by decide)
  apply Reads.many_bind (fun f member => (functions f member).1)
    (fun f member => (functions f member).2) (head?_append_of_eq head?_lookup) (by decide)
  apply Reads.expect_bind rfl
  apply Reads.expect_bind rfl
  rw [← List.append_assoc (tokens "Some(((raw >> shift) & 0x1f) as u8)")]
  apply Reads.bind reads_register
  apply Reads.lift_bind rfl
  apply Reads.expect_bind rfl
  apply Reads.many_bind (fun a member => reads_armLine (legible.isWord a member))
    (fun a member => by rw [tokens_armLine (legible.isWord a member)]; rfl)
    (head?_append_of_eq head?_lookupEnd) (by decide)
  apply Reads.expect_bind rfl
  apply Reads.expect_bind rfl
  apply Reads.expect_bind rfl
  rw [← List.append_assoc (tokens "(raw & 0x7f) as u8")]
  apply Reads.bind reads_opcode
  rw [map_functionTexts, List.map_id']
  exact Reads.expect_pure rfl _

/-- The text of a decoder is read as the module that the decoder is written as. -/
theorem read?_lines (legible : Legible d) :
    LookupModule.read? (unlines d.lines) = some (.ofDecoder d) := by
  rw [LookupModule.read?, tokens_unlines]
  exact (reads_lookupModule legible).all?_eq

end DecodeTables.Emitted
