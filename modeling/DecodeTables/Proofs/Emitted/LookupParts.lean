import DecodeTables.Proofs.Emitted.Formula
import DecodeTables.Proofs.Emitted.Masks

/-!
# Parts of an emitted lookup decoder

The lines that a `LookupDecoder` repeats, and what a reader takes them for: rows of masks, opcodes
with several masks, functions and arms. A line is turned into its tokens first, then the tokens are
read.
-/

namespace DecodeTables.Emitted

open Artifact Text

/-! ## Masks -/

/-- The tokens of masks with a comma behind each. -/
def maskTokens (masks : List Word) : List Token :=
  masks.flatMap fun mask => [.word (Hex.halves mask), .mark ',']

theorem words?_maskTokens (masks : List Word) : words? (maskTokens masks) = some masks :=
  words?_flatMap numeral?_halves masks

/-- A list among commas, with one behind the last item. -/
theorem commaTokens_append {masks : List Word} (nonempty : masks ≠ []) :
    commaTokens (masks.map Hex.halves) ++ [.mark ','] = maskTokens masks := by
  match masks, nonempty with
  | [mask], _ => rfl
  | mask :: second :: masks, _ =>
    have split : commaTokens ((mask :: second :: masks).map Hex.halves) =
        .word (Hex.halves mask) :: .mark ',' :: commaTokens ((second :: masks).map Hex.halves) :=
      rfl
    rw [split, List.cons_append, List.cons_append, commaTokens_append (List.cons_ne_nil _ _)]
    rfl

theorem mark_notMem_maskTokens {c : Char} (ne : c ≠ ',') (masks : List Word) :
    .mark c ∉ maskTokens masks := by
  simp [maskTokens, ne]

theorem tokens_maskRow {row : List Word} (nonempty : row ≠ []) :
    tokens (indent 1 (commas (row.map Hex.halves) ++ ",")) = maskTokens row := by
  have comma : Spells ",".toList [.mark ','] := by decide
  have line := (isSpelled_masks isWord_halves row).append comma.isSpelled ⟨',', by decide, by decide⟩
  rw [tokens_indent, line.tokens_eq, commaTokens_append nonempty]

/-- The rows of the mask table hold its masks one by one. -/
theorem tokens_maskRows (masks : List Word) :
    ((rows masks).map fun row => indent 1 (commas (row.map Hex.halves) ++ ",")).flatMap tokens =
      maskTokens masks := by
  have joined (table : List (List Word)) (nonempty : ∀ row ∈ table, row ≠ []) :
      (table.map fun row => indent 1 (commas (row.map Hex.halves) ++ ",")).flatMap tokens =
        maskTokens table.flatten := by
    induction table with
    | nil => rfl
    | cons row table ih =>
      rw [List.forall_mem_cons] at nonempty
      rw [List.map_cons, List.flatMap_cons, tokens_maskRow nonempty.1, ih nonempty.2,
        List.flatten_cons]
      exact List.flatMap_append.symm
  rw [joined _ fun _ => ne_nil_of_mem_rows, flatten_rows]

/-! ## Trials -/

/-- The line of an opcode with several masks. -/
def trialLine (opcode : Nat) (masks : List Word) : String :=
  indent 1 s!"({Hex.paddedTo 2 opcode}, &[{commas (masks.map Hex.halves)}]),"

def trialTokens (opcode : Nat) (masks : List Word) : List Token :=
  [Token.mark '('] ++ ([Token.word (Hex.paddedTo 2 opcode)] ++
    ([Token.mark ',', .mark '&', .mark '['] ++
      ((commaTokens (masks.map Hex.halves) ++ [Token.mark ']']) ++ [Token.mark ')', .mark ','])))

theorem tokens_trialLine (opcode : Nat) (masks : List Word) :
    tokens (trialLine opcode masks) = trialTokens opcode masks := by
  have text : s!"({Hex.paddedTo 2 opcode}, &[{commas (masks.map Hex.halves)}]),".toList =
      '(' :: ((Hex.paddedTo 2 opcode).toList ++ ',' :: ([' ', '&', '['] ++
        ((commas (masks.map Hex.halves)).toList ++ ']' :: [')', ',']))) := by
    simp [toString]
  have opened : Spells ['('] [.mark '('] := by decide
  have inner : Spells [',', ' ', '&', '['] [.mark ',', .mark '&', .mark '['] := by decide
  rw [trialLine, tokens_indent, tokens, text, ← List.singleton_append,
    scan_append_of_spells opened, scan_word (isWord_paddedTo 2 opcode) (by decide),
    ← List.cons_append, scan_append_of_spells inner,
    (isSpelled_masks isWord_halves masks).scan_eq (by decide)]
  simp only [trialTokens, List.append_assoc]
  rfl

theorem reads_trial {opcode : Nat} (bound : opcode < 0x100) (masks : List Word) :
    Reads Reader.trial (tokens (trialLine opcode masks)) (opcode, masks) := by
  rw [tokens_trialLine]
  unfold Reader.trial trialTokens
  apply Reads.expect_bind (by decide)
  apply Reads.bind (Reads.number (numeral?_paddedTo 2 opcode) bound)
  apply Reads.expect_bind (by decide)
  apply Reads.bind (Reads.upTo (mark_notMem_commaTokens (by decide) _))
  apply Reads.lift_bind (words?_commaTokens numeral?_halves masks)
  exact Reads.expect_pure (by decide) _

/-! ## Functions -/

/-- The tokens of a variable's definition. -/
def definitionTokens (x : String) (value : List Token) : List Token :=
  [Token.word "let"] ++ ([Token.word x] ++ ([Token.mark '='] ++ (value ++ [Token.mark ';'])))

/-- The tokens of a function, from those of its parameters, definitions and body. -/
def functionTokens (name type : String) (parameters : List Token)
    (definitions : List (String × List Token × Expr)) (body : List Token) : List Token :=
  [Token.word "const", .word "fn"] ++ ([Token.word name] ++ ([Token.mark '('] ++
    ((parameters ++ [Token.mark ')']) ++ ([Token.mark '-', .mark '>'] ++ ([Token.word type] ++
      ([Token.mark '\x7b'] ++ (definitions.flatMap (fun v => definitionTokens v.1 v.2.1) ++
        (body ++ [Token.mark '\x7d']))))))))

theorem reads_expressionUpTo {close : Char} {taken : List Token} {e : Expr}
    (read : Expr.read? taken = some e) (inside : .mark close ∉ taken) :
    Reads (Reader.expressionUpTo close) (taken ++ [.mark close]) e := by
  unfold Reader.expressionUpTo
  rw [← List.append_nil (taken ++ _)]
  apply Reads.bind (Reads.upTo inside)
  rw [read]
  exact Reads.pure e

theorem reads_definition {value : List Token} {e : Expr} (x : String)
    (read : Expr.read? value = some e) (inside : .mark ';' ∉ value) :
    Reads Reader.definition (definitionTokens x value) (x, e) := by
  unfold Reader.definition definitionTokens
  apply Reads.expect_bind (by decide)
  apply Reads.bind (Reads.word x)
  apply Reads.expect_bind (by decide)
  exact Reads.bind_pure (reads_expressionUpTo read inside) _

/-- A function is read part by part. -/
theorem reads_function {name type : String} {parameters body : List Token}
    {typed : List (String × IntType)} {result : IntType}
    {definitions : List (String × List Token × Expr)} {value : Expr}
    (typedParameters : Reader.parameters? parameters = some typed)
    (closed : .mark ')' ∉ parameters) (typedResult : IntType.ofName? type = some result)
    (defined : ∀ v ∈ definitions, Expr.read? v.2.1 = some v.2.2 ∧ .mark ';' ∉ v.2.1)
    (nonempty : body ≠ []) (begins : body.head? ≠ some (.word "let"))
    (read : Expr.read? body = some value) (inside : .mark '\x7d' ∉ body) :
    Reads Reader.function (functionTokens name type parameters definitions body)
      { name, parameters := typed, result, value
        locals := definitions.map fun v => (v.1, v.2.2) } := by
  unfold Reader.function functionTokens
  apply Reads.expect_bind (by decide)
  apply Reads.bind (Reads.word name)
  apply Reads.expect_bind (by decide)
  apply Reads.bind (Reads.upTo closed)
  apply Reads.lift_bind typedParameters
  apply Reads.expect_bind (by decide)
  apply Reads.bind (Reads.word type)
  apply Reads.lift_bind typedResult
  apply Reads.expect_bind (by decide)
  obtain ⟨first, rest, rfl⟩ := List.exists_cons_of_ne_nil nonempty
  apply Reads.many_bind (fun v member => reads_definition v.1 (defined v member).1
    (defined v member).2) (fun v _ => rfl) rfl fun same => begins (congrArg some same)
  exact Reads.bind_pure (reads_expressionUpTo read inside) _

/-- The lines of the function that extends signs. -/
def signLines : List String :=
  ["const fn sext(value: u32, width: u32) -> i64 \x7b",
    indent 1 "let shift = 64 - width;",
    indent 1 "((value as i64) << shift) >> shift",
    "\x7d",
    ""]

/-- The lines of the function of a layout. -/
def formulaLines (layout : Immediate) (f : Formula) : List String :=
  [s!"const fn {immediateFunction layout}(raw: u32) -> i64 \x7b",
    indent 1 f.text,
    "\x7d",
    ""]

theorem reads_signLines : Reads Reader.function (signLines.flatMap tokens) signFunction ∧
    (signLines.flatMap tokens).head? = some (.word "const") := by
  let parameters : List Token := [.word "value", .mark ':', .word "u32", .mark ',', .word "width",
    .mark ':', .word "u32"]
  let shift : List Token := [.word "64", .mark '-', .word "width"]
  let body : List Token := [.mark '(', .mark '(', .word "value", .word "as", .word "i64", .mark ')',
    .mark '<', .mark '<', .word "shift", .mark ')', .mark '>', .mark '>', .word "shift"]
  have split : signLines.flatMap tokens = functionTokens "sext" "i64" parameters
      [("shift", shift, .binary .sub (.literal 64) (.name "width"))] body := by
    simp only [signLines, List.flatMap_cons, List.flatMap_nil, tokens_indent]
    rw [tokens_ofList, tokens_ofList, tokens_ofList, tokens_ofList, tokens_ofList]
    decide +kernel
  rw [split]
  refine ⟨reads_function (by decide) (by decide) rfl ?_ (by decide) (by decide)
    (by decide +kernel) (by decide), rfl⟩
  rw [List.forall_mem_singleton]
  exact ⟨by decide +kernel, by decide⟩

theorem reads_formulaLines {layout : Immediate} {f : Formula}
    (chosen : formula? layout = some f) :
    Reads Reader.function ((formulaLines layout f).flatMap tokens) (formulaFunction layout f) ∧
      ((formulaLines layout f).flatMap tokens).head? = some (.word "const") := by
  obtain ⟨read, inside, nonempty, begins⟩ := read?_formula? chosen
  let parameters : List Token := [.word "raw", .mark ':', .word "u32"]
  have header : tokens s!"const fn {immediateFunction layout}(raw: u32) -> i64 \x7b" =
      [Token.word "const", .word "fn", .word (immediateFunction layout), .mark '('] ++ parameters ++
        [Token.mark ')', .mark '-', .mark '>', .word "i64", .mark '\x7b'] := by
    cases layout <;> decide +kernel
  have split : (formulaLines layout f).flatMap tokens =
      functionTokens (immediateFunction layout) "i64" parameters [] (tokens f.text) := by
    have last : tokens "\x7d" = [.mark '\x7d'] := by decide
    have empty : tokens "" = [] := by decide
    simp only [formulaLines, List.flatMap_cons, List.flatMap_nil, header, tokens_indent, last,
      empty, List.append_nil]
    rfl
  rw [split]
  exact ⟨reads_function (by decide) (by decide) rfl (by simp) nonempty begins read inside, rfl⟩

/-! ## Arms -/

def slotTokens : Option Nat → List Token
  | some low => [.word "reg", .mark '(', .word low.repr, .mark ')']
  | none => [.word "None"]

def immediateTokens (layout : Immediate) : List Token :=
  match formula? layout with
  | some _ => [.word "Some", .mark '(', .word (immediateFunction layout), .mark '(', .word "raw",
      .mark ')', .mark ')']
  | none => [.word "None"]

/-- The function of a layout, if its immediates are computed. -/
def function? (layout : Immediate) : Option String :=
  (formula? layout).map fun _ => immediateFunction layout

theorem reads_slot (slot : Option Nat) : Reads Reader.slot (slotTokens slot) slot := by
  intro rest
  cases slot with
  | none => rfl
  | some low =>
    have step : Reader.slot (slotTokens (some low) ++ rest) =
        (numeral? low.repr).map fun n => (some n, rest) := rfl
    rw [step, numeral?_repr]
    rfl

theorem reads_immediate (layout : Immediate) :
    Reads Reader.immediate (immediateTokens layout) (function? layout) := by
  intro rest
  cases layout <;> rfl

section

variable {c : Char} {rest : List Char} (ends : isWordChar c = false)
include ends

theorem scan_none : scan .between ("None".toList ++ c :: rest) =
    .word "None" :: scan .between (c :: rest) :=
  scan_word (by decide) ends

theorem scan_registerText (slot : Option Nat) :
    scan .between ((LookupDecoder.registerText slot).toList ++ c :: rest) =
      slotTokens slot ++ scan .between (c :: rest) := by
  cases slot with
  | none => exact scan_none ends
  | some low =>
    have text : (LookupDecoder.registerText (some low)).toList ++ c :: rest =
        "reg(".toList ++ (low.repr.toList ++ ')' :: c :: rest) := by
      simp [LookupDecoder.registerText, toString]
    have opened : Spells "reg(".toList [.word "reg", .mark '('] := by decide
    have closed : scan .between (')' :: c :: rest) = .mark ')' :: scan .between (c :: rest) :=
      scan_append_of_spells (by decide : Spells [')'] [.mark ')'])
    rw [text, scan_append_of_spells opened, scan_word (isWord_repr low) (by decide), closed]
    rfl

theorem scan_immediateText (layout : Immediate) :
    scan .between ((LookupDecoder.immediateText layout).toList ++ c :: rest) =
      immediateTokens layout ++ scan .between (c :: rest) := by
  have closed {layout : Immediate} (computed : formula? layout ≠ none) :
      Spells (LookupDecoder.immediateText layout).toList (immediateTokens layout) := by
    cases layout <;> first | decide +kernel | exact absurd rfl computed
  by_cases absent : formula? layout = none
  · cases layout <;> cases absent
    exact scan_none ends
  · exact scan_append_of_spells (closed absent)

end

def armTokens (a : Arm) : List Token :=
  [Token.mark '('] ++ ([Token.word (Hex.short a.mask.toNat)] ++ ([Token.mark ','] ++
    ([Token.word (Hex.short a.value.toNat)] ++ (tokens ") => (InstrId::" ++
      ([Token.word a.symbol] ++ ([Token.mark ','] ++ (slotTokens a.rs1 ++ ([Token.mark ','] ++
        (slotTokens a.rs2 ++ ([Token.mark ','] ++ (slotTokens a.rd ++ ([Token.mark ','] ++
          (immediateTokens a.immediate ++ [Token.mark ')', .mark ','])))))))))))))

theorem tokens_armLine {a : Arm} (isWord : IsWord a.symbol) :
    tokens (LookupDecoder.armLine a) = armTokens a := by
  have text : (LookupDecoder.armLine a).toList =
      (List.replicate 8 ' ' ++ ['(']) ++ ((Hex.short a.mask.toNat).toList ++ ',' :: ' ' ::
        ((Hex.short a.value.toNat).toList ++ ')' :: (" => (InstrId::".toList ++
          (a.symbol.toList ++ ',' :: ' ' ::
            ((LookupDecoder.registerText a.rs1).toList ++ ',' :: ' ' ::
              ((LookupDecoder.registerText a.rs2).toList ++ ',' :: ' ' ::
                ((LookupDecoder.registerText a.rd).toList ++ ',' :: ' ' ::
                  ((LookupDecoder.immediateText a.immediate).toList ++ ')' :: [','])))))))) := by
    simp [LookupDecoder.armLine, indent, toString]
  have opened : Spells (List.replicate 8 ' ' ++ ['(']) [.mark '('] := by decide
  have inner (rest : List Char) : scan .between (')' :: (" => (InstrId::".toList ++ rest)) =
      tokens ") => (InstrId::" ++ scan .between rest :=
    scan_append_of_spells (by decide :
      Spells ") => (InstrId::".toList (tokens ") => (InstrId::"))
  have closed : scan .between [')', ','] = [.mark ')', .mark ','] := by decide
  rw [tokens, text, scan_append_of_spells opened,
    scan_word (isWord_short _) (by decide), scan_separator, scan_word (isWord_short _) (by decide),
    inner, scan_word isWord (by decide), scan_separator, scan_registerText (by decide),
    scan_separator, scan_registerText (by decide), scan_separator, scan_registerText (by decide),
    scan_separator, scan_immediateText (by decide), closed, armTokens]
  rfl

def ModuleArm.ofArm (a : Arm) : ModuleArm where
  mask := a.mask
  value := a.value
  symbol := a.symbol
  rs1 := a.rs1
  rs2 := a.rs2
  rd := a.rd
  imm := function? a.immediate

theorem reads_armLine {a : Arm} (isWord : IsWord a.symbol) :
    Reads Reader.arm (tokens (LookupDecoder.armLine a)) (.ofArm a) := by
  have word (w : Word) : BitVec.ofNat 32 w.toNat = w := by
    rw [BitVec.ofNat_toNat, BitVec.setWidth_eq]
  have arm : ModuleArm.ofArm a = { ModuleArm.ofArm a with
      mask := BitVec.ofNat 32 a.mask.toNat, value := BitVec.ofNat 32 a.value.toNat } := by
    rw [word, word]
    rfl
  rw [tokens_armLine isWord, arm]
  unfold Reader.arm armTokens
  apply Reads.expect_bind (by decide)
  apply Reads.bind (Reads.number (numeral?_short _) a.mask.isLt)
  apply Reads.expect_bind (by decide)
  apply Reads.bind (Reads.number (numeral?_short _) a.value.isLt)
  apply Reads.expect_bind rfl
  apply Reads.bind (Reads.word a.symbol)
  apply Reads.expect_bind (by decide)
  apply Reads.bind (reads_slot a.rs1)
  apply Reads.expect_bind (by decide)
  apply Reads.bind (reads_slot a.rs2)
  apply Reads.expect_bind (by decide)
  apply Reads.bind (reads_slot a.rd)
  apply Reads.expect_bind (by decide)
  apply Reads.bind (reads_immediate a.immediate)
  exact Reads.expect_pure (by decide) _

end DecodeTables.Emitted
