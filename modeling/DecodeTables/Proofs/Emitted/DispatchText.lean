import DecodeTables.Proofs.Emitted.DispatchParts
import DecodeTables.Proofs.Emitted.LookupText

/-!
# Reading an emitted dispatching decoder

The texts of a `SwitchDecoder` and of a `FlatDecoder` say what the decoders hold, in any namespace.
`SwitchModule.ofDecoder` and `FlatModule.ofDecoder` are the modules that are meant, and
`read?_switchLines` and `read?_flatLines` read them back from the lines.
-/

namespace DecodeTables.Emitted

open Artifact Text

/-! ## Decoders -/

/-- The opcodes that have a case, each with the statement that probes its masks. -/
def switchCases (d : SwitchDecoder) : List (Nat × Statement) :=
  d.singles.map (fun e => (e.1, .probe e.2 e.2)) ++ d.trials.map fun e => (e.1, .probeEach e.2)

/-- A case that is left behind its probes. -/
def caseStatements (c : Nat × Statement) : List Statement := [.label c.1, c.2, .leave]

/-- The module that a decoder with a switch is written as. -/
def SwitchModule.ofDecoder (d : SwitchDecoder) : SwitchModule where
  opcode := (6, 0)
  body := (switchCases d).flatMap caseStatements ++ [.otherwise, .throwUnknownOpcode]
  arms := d.arms.map .ofArm

/-- The module that a decoder with tables is written as. -/
def FlatModule.ofDecoder (d : FlatDecoder) : FlatModule where
  opcode := (6, 0)
  masks := d.masks
  trials := d.trials
  arms := d.arms.map .ofArm

/-- What a decoder with a switch is written from can be read. -/
structure LegibleSwitch (d : SwitchDecoder) : Prop where
  single_lt : ∀ e ∈ d.singles, e.1 < 0x100
  trial_lt : ∀ e ∈ d.trials, e.1 < 0x100
  several : ∀ e ∈ d.trials, e.2 ≠ []
  arm : ∀ a ∈ d.arms, LegibleArm a

/-- What a decoder with tables is written from can be read. -/
structure LegibleFlat (d : FlatDecoder) : Prop where
  length_masks : d.masks.length = 128
  trial_lt : ∀ e ∈ d.trials, e.1 < 0x100
  arm : ∀ a ∈ d.arms, LegibleArm a

/-! ## Cases and rows -/

theorem tokens_case (opcode : Nat) :
    tokens (indent 2 s!"case {Hex.short opcode}:") = (Statement.label opcode).spelling := by
  have nested : s!"case {Hex.short opcode}:" = "case " ++ (Hex.short opcode ++ ":") := by
    simp [toString, String.append_assoc]
  have line : IsSpelled ("case " ++ (Hex.short opcode ++ ":"))
      ([.word "case"] ++ ([.word (Hex.short opcode)] ++ [.mark ':'])) :=
    (isWord_short opcode).isSpelled.between (by decide) (by decide) ⟨':', by decide, by decide⟩
  rw [tokens_indent, nested, line.tokens_eq]
  rfl

theorem tokens_break (level : Nat) :
    tokens (indent level "break;") = Statement.leave.spelling := by
  rw [tokens_indent]
  decide

theorem tokens_singleCase (opcode : Nat) (mask : Word) :
    (SwitchDecoder.singleCase opcode mask).flatMap tokens =
      (caseStatements (opcode, .probe mask mask)).flatMap Statement.spelling := by
  let m := Hex.short mask.toNat
  have nested : s!"if (auto decoder = get_decoder({m}, raw_instr & {m})) [[likely]]" =
      "if (auto decoder = get_decoder(" ++ (m ++ (", raw_instr & " ++ (m ++ ")) [[likely]]"))) := by
    simp [toString, String.append_assoc]
  have opened : Spells "if (auto decoder = get_decoder(".toList
      (.word "if" :: tokens "(auto decoder = get_decoder(") := by
    decide
  have closed : Spells ")) [[likely]]".toList (tokens ")) [[likely]]") := by decide
  have line : IsSpelled
      ("if (auto decoder = get_decoder(" ++ (m ++ (", raw_instr & " ++ (m ++ ")) [[likely]]"))))
      ((.word "if" :: tokens "(auto decoder = get_decoder(") ++ ([.word m] ++
        (tokens ", raw_instr &" ++ ([.word m] ++ tokens ")) [[likely]]")))) :=
    IsSpelled.append_of_spells opened <| (isWord_short _).isSpelled.append_mark (by decide)
      ⟨',', by decide, by decide⟩ <|
        (isWord_short _).isSpelled.append closed.isSpelled ⟨')', by decide, by decide⟩
  have last : tokens ")) [[likely]] return decoder(raw_instr);" =
      tokens ")) [[likely]]" ++ tokens "return decoder(raw_instr);" := by
    decide +kernel
  rw [SwitchDecoder.singleCase]
  simp only [List.flatMap_cons, List.flatMap_nil, tokens_case, tokens_break, tokens_indent 4]
  rw [tokens_indent, nested, line.tokens_eq, caseStatements]
  simp only [List.flatMap_cons, List.flatMap_nil, Statement.spelling, last, List.append_assoc,
    List.cons_append]
  rfl

theorem tokens_trialsCase (opcode : Nat) (masks : List Word) :
    (SwitchDecoder.trialsCase opcode masks).flatMap tokens =
      (caseStatements (opcode, .probeEach masks)).flatMap Statement.spelling := by
  let item (mask : Word) : String := "mask_type\x7b" ++ Hex.short mask.toNat ++ "\x7d"
  have each (mask : Word) : IsSpelled (item mask) (Statement.maskTypeTokens mask) := by
    rw [show item mask = "mask_type\x7b" ++ (Hex.short mask.toNat ++ "\x7d") from
      String.append_assoc]
    exact (isWord_short _).isSpelled.between (by decide) (by decide) ⟨'\x7d', by decide, by decide⟩
  have opened : Spells "for (auto mask : \x7b".toList
      (.word "for" :: tokens "(auto mask : \x7b") := by
    decide
  have line : IsSpelled ("for (auto mask : \x7b" ++ (commas (masks.map item) ++ "\x7d)"))
      ((.word "for" :: tokens "(auto mask : \x7b") ++
        (joinTokens (masks.map Statement.maskTypeTokens) ++ [.mark '\x7d', .mark ')'])) :=
    (isSpelled_commas fun mask _ => each mask).between opened (by decide)
      ⟨'\x7d', by decide, by decide⟩
  have last : tokens Reader.loopText = [.mark '\x7d', .mark ')'] ++ (tokens "\x7b" ++
      (tokens "if (auto decoder = get_decoder(mask, raw_instr & mask))" ++
        (tokens "return decoder(raw_instr);" ++ tokens "\x7d"))) := by
    rw [Reader.loopText]
    repeat rw [tokens_ofList]
    decide +kernel
  rw [SwitchDecoder.trialsCase]
  simp only [List.flatMap_cons, List.flatMap_nil, tokens_case, tokens_break, tokens_indent 4,
    tokens_indent 5]
  rw [tokens_indent, tokens_indent, tokens_indent, String.append_assoc, line.tokens_eq,
    caseStatements]
  simp only [List.flatMap_cons, List.flatMap_nil, Statement.spelling, last, List.append_assoc,
    List.cons_append]

theorem tokens_default : ([indent 2 "default: [[unlikely]]"] ++ unknownOpcode 3).flatMap tokens =
    [Statement.otherwise, .throwUnknownOpcode].flatMap Statement.spelling := by
  simp only [unknownOpcode, List.cons_append, List.nil_append, List.flatMap_cons, List.flatMap_nil,
    tokens_indent, Statement.spelling, Reader.throwText]
  repeat rw [tokens_ofList]
  decide +kernel

theorem tokens_unknownInstruction (level : Nat) :
    (unknownInstruction level).flatMap tokens ++ [.mark '\x7d'] = tokens Reader.unknownText := by
  simp only [unknownInstruction, List.flatMap_cons, List.flatMap_nil, tokens_indent,
    Reader.unknownText]
  repeat rw [tokens_ofList]
  decide +kernel

/-- The line of an opcode with several masks in a map. -/
def trialRowLine (opcode : Nat) (masks : List Word) : String :=
  indent 1 ("\x7b" ++ Hex.short opcode ++ ", \x7b" ++
    commas (masks.map fun mask => Hex.short mask.toNat) ++ "\x7d\x7d,")

def trialRowTokens (opcode : Nat) (masks : List Word) : List Token :=
  [.mark '\x7b'] ++ ([.word (Hex.short opcode)] ++ ([.mark ',', .mark '\x7b'] ++
    ((commaTokens (masks.map fun mask => Hex.short mask.toNat) ++ [.mark '\x7d']) ++
      [.mark '\x7d', .mark ','])))

theorem tokens_trialRowLine (opcode : Nat) (masks : List Word) :
    tokens (trialRowLine opcode masks) = trialRowTokens opcode masks := by
  have closed : Spells "\x7d\x7d,".toList [.mark '\x7d', .mark '\x7d', .mark ','] := by decide
  have list := isSpelled_masks (fun mask => isWord_short mask.toNat) masks
  have line := IsSpelled.append_of_spells (by decide : Spells "\x7b".toList [.mark '\x7b']) <|
    (isWord_short opcode).isSpelled.append_mark
      (by decide : Spells ", \x7b".toList [.mark ',', .mark '\x7b']) ⟨',', by decide, by decide⟩ <|
        list.append closed.isSpelled ⟨'\x7d', by decide, by decide⟩
  rw [trialRowLine, tokens_indent, String.append_assoc, String.append_assoc, String.append_assoc,
    line.tokens_eq, trialRowTokens]
  simp only [List.append_assoc]
  rfl

theorem reads_trialRow {opcode : Nat} (bound : opcode < 0x100) (masks : List Word) :
    Reads Reader.trialRow (trialRowTokens opcode masks) (opcode, masks) := by
  unfold Reader.trialRow trialRowTokens
  apply Reads.expect_bind (by decide)
  apply Reads.bind (Reads.number (numeral?_short opcode) bound)
  apply Reads.expect_bind (by decide)
  apply Reads.bind (Reads.upTo (mark_notMem_commaTokens (by decide) _))
  apply Reads.lift_bind (words?_commaTokens (fun mask => numeral?_short mask.toNat) masks)
  exact Reads.expect_pure (by decide) _

/-! ## Functions -/

theorem flatMap_tokens_append (front later : List String) :
    (front ++ later).flatMap tokens = front.flatMap tokens ++ later.flatMap tokens :=
  List.flatMap_append

/-- The tokens of the bits that hold the opcode. -/
def opcodeTokens : List Token :=
  [.mark '<'] ++ ([.word (6).repr] ++ ([.mark ','] ++ [.word (0).repr]))

theorem reads_opcodeTokens : Reads Reader.range opcodeTokens (6, 0) :=
  reads_range (by decide) (by decide)

/-- How the function that decodes begins. -/
theorem tokens_decodeFront :
    ["Instruction Decoder::decode(RawInstruction raw_instr)", "\x7b",
      indent 1 "auto opcode = get_bits<6, 0>(raw_instr);"].flatMap tokens =
      tokens Reader.decodeText ++ (opcodeTokens ++ tokens ">(raw_instr);") := by
  simp only [List.flatMap_cons, List.flatMap_nil, tokens_indent, Reader.decodeText]
  repeat rw [tokens_ofList]
  decide +kernel

/-- The cases of a switch over opcodes. -/
def caseLines (d : SwitchDecoder) : List String :=
  (d.singles.flatMap fun (opcode, mask) => SwitchDecoder.singleCase opcode mask) ++
    ((d.trials.flatMap fun (opcode, masks) => SwitchDecoder.trialsCase opcode masks) ++
      ([indent 2 "default: [[unlikely]]"] ++ unknownOpcode 3))

/-- The lines of the function that decodes by a switch. -/
def switchLines (d : SwitchDecoder) : List String :=
  ["Instruction Decoder::decode(RawInstruction raw_instr)", "\x7b",
    indent 1 "auto opcode = get_bits<6, 0>(raw_instr);"] ++
    ([indent 1 "switch (opcode)", indent 1 "\x7b"] ++ (caseLines d ++ ([indent 1 "\x7d", ""] ++
      (unknownInstruction 1 ++ ["\x7d", ""]))))

/-- The lines of the function that finds a lambda by a switch. -/
def keysLines (arms : List Arm) : List String :=
  ["Decoder::decoding_func_type Decoder::get_decoder(mask_type mask, match_type match) noexcept",
    "\x7b", indent 1 "switch (key(mask, match))", indent 1 "\x7b"] ++
    (arms.flatMap keyedLines ++ [indent 2 "default: [[unlikely]]", indent 3 "return nullptr;",
      indent 1 "\x7d", "\x7d"])

theorem tokens_caseLines (d : SwitchDecoder) :
    (caseLines d).flatMap tokens = (SwitchModule.ofDecoder d).body.flatMap Statement.spelling := by
  rw [caseLines, flatMap_tokens_append, flatMap_tokens_append, tokens_default, List.flatMap_assoc,
    List.flatMap_assoc, SwitchModule.ofDecoder, switchCases, List.flatMap_append,
    List.flatMap_append, List.flatMap_append, List.flatMap_assoc, List.flatMap_assoc,
    List.flatMap_map, List.flatMap_map, List.append_assoc]
  simp only [tokens_singleCase, tokens_trialsCase]

theorem tokens_switchLines (d : SwitchDecoder) :
    (switchLines d).flatMap tokens = tokens Reader.decodeText ++ (opcodeTokens ++
      (tokens ">(raw_instr); switch (opcode) \x7b" ++
        ((SwitchModule.ofDecoder d).body.flatMap Statement.spelling ++
          ([.mark '\x7d'] ++ tokens Reader.unknownText)))) := by
  have front : [indent 1 "switch (opcode)", indent 1 "\x7b"].flatMap tokens =
      tokens "switch (opcode) \x7b" := by
    simp only [List.flatMap_cons, List.flatMap_nil, tokens_indent]
    decide
  have opened : tokens ">(raw_instr); switch (opcode) \x7b" =
      tokens ">(raw_instr);" ++ tokens "switch (opcode) \x7b" := by
    decide +kernel
  have brace : [indent 1 "\x7d", ""].flatMap tokens = [.mark '\x7d'] := by
    simp only [List.flatMap_cons, List.flatMap_nil, tokens_indent]
    decide
  have last : ["\x7d", ""].flatMap tokens = [.mark '\x7d'] := by decide
  rw [switchLines, flatMap_tokens_append, flatMap_tokens_append, flatMap_tokens_append,
    flatMap_tokens_append, flatMap_tokens_append, tokens_decodeFront, front, tokens_caseLines, brace,
    last, tokens_unknownInstruction, opened]
  simp only [List.append_assoc]

theorem tokens_keysLines {arms : List Arm} (legible : ∀ a ∈ arms, LegibleArm a) :
    (keysLines arms).flatMap tokens = tokens Reader.keysText ++
      ((arms.map KeyedArm.ofArm).flatMap KeyedArm.caseTokens ++
        tokens "default: [[unlikely]] return nullptr; \x7d \x7d") := by
  have front :
      ["Decoder::decoding_func_type Decoder::get_decoder(mask_type mask, match_type match) noexcept",
        "\x7b", indent 1 "switch (key(mask, match))", indent 1 "\x7b"].flatMap tokens =
      tokens Reader.keysText := by
    simp only [List.flatMap_cons, List.flatMap_nil, tokens_indent, Reader.keysText]
    repeat rw [tokens_ofList]
    decide +kernel
  have back : [indent 2 "default: [[unlikely]]", indent 3 "return nullptr;", indent 1 "\x7d",
      "\x7d"].flatMap tokens = tokens "default: [[unlikely]] return nullptr; \x7d \x7d" := by
    simp only [List.flatMap_cons, List.flatMap_nil, tokens_indent]
    repeat rw [tokens_ofList]
    decide +kernel
  rw [keysLines, flatMap_tokens_append, flatMap_tokens_append, front, back, List.flatMap_assoc,
    List.flatMap_map, List.flatMap_congr fun a member => tokens_keyedLines (legible a member)]

/-- The line that begins the map of masks to try. -/
def trialsLine : String :=
  "const std::unordered_map<std::uint8_t, std::vector<Decoder::mask_type>> Decoder::trials_ = \x7b"

/-- The line that begins the map of lambdas. -/
def lambdasLine : String :=
  "const std::unordered_map<std::uint64_t, Decoder::decoding_func_type> Decoder::match_map_ = \x7b"

/-- The lines of tables: the masks, the trials and the lambdas. -/
def tableLines (d : FlatDecoder) : List String :=
  [Reader.masksText] ++
    (separated ((rows d.masks).map fun row => indent 1 (commas (row.map Hex.padded))) ++
      (["\x7d;", "", trialsLine] ++
        ((d.trials.map fun (opcode, masks) => trialRowLine opcode masks) ++
          (["\x7d;", "", lambdasLine] ++
            (d.arms.flatMap rowLines ++ ["\x7d;", ""])))))

/-- What stands behind the opcode in the function that decodes by tables. -/
def tryLines : List String :=
  [indent 1 "auto try_mask = [raw_instr](mask_type mask) \x7b",
    indent 2 "auto it = match_map_.find(key(mask, raw_instr & mask));",
    indent 2 "return it == match_map_.end() ? nullptr : it->second;",
    indent 1 "\x7d;",
    "",
    indent 1 "if (auto mask = masks_[opcode]) [[likely]]",
    indent 1 "\x7b",
    indent 2 "if (auto decoder = try_mask(mask))",
    indent 3 "return decoder(raw_instr);",
    indent 1 "\x7d",
    indent 1 "else if (auto trials = trials_.find(opcode); trials != trials_.end())",
    indent 1 "\x7b",
    indent 2 "for (auto mask : trials->second)",
    indent 2 "\x7b",
    indent 3 "if (auto decoder = try_mask(mask))",
    indent 4 "return decoder(raw_instr);",
    indent 2 "\x7d",
    indent 1 "\x7d",
    indent 1 "else [[unlikely]]"] ++ unknownOpcode 2 ++ [""]

/-- The lines of the function that decodes by tables. -/
def flatLines : List String :=
  ["Instruction Decoder::decode(RawInstruction raw_instr)", "\x7b",
    indent 1 "auto opcode = get_bits<6, 0>(raw_instr);"] ++
    (tryLines ++ (unknownInstruction 1 ++ ["\x7d"]))

theorem tokens_tableLines {d : FlatDecoder} (legible : LegibleFlat d) :
    (tableLines d).flatMap tokens = tokens Reader.masksText ++
      ((commaTokens (d.masks.map Hex.padded) ++ [.mark '\x7d']) ++ ([.mark ';'] ++
        (tokens Reader.trialsText ++
          (d.trials.flatMap (fun e => trialRowTokens e.1 e.2) ++ ([.mark '\x7d', .mark ';'] ++
            (tokens Reader.lambdasText ++
              ((d.arms.map KeyedArm.ofArm).flatMap KeyedArm.rowTokens ++
                [.mark '\x7d', .mark ';']))))))) := by
  have masks : [Reader.masksText].flatMap tokens = tokens Reader.masksText := List.append_nil _
  have trials : ["\x7d;", "", trialsLine].flatMap tokens =
      [.mark '\x7d'] ++ ([.mark ';'] ++ tokens Reader.trialsText) := by
    simp only [List.flatMap_cons, List.flatMap_nil, trialsLine, Reader.trialsText]
    repeat rw [tokens_ofList]
    decide +kernel
  have arms : ["\x7d;", "", lambdasLine].flatMap tokens =
      [.mark '\x7d', .mark ';'] ++ tokens Reader.lambdasText := by
    simp only [List.flatMap_cons, List.flatMap_nil, lambdasLine, Reader.lambdasText]
    repeat rw [tokens_ofList]
    decide +kernel
  have last : ["\x7d;", ""].flatMap tokens = [.mark '\x7d', .mark ';'] := by decide
  have padded : ∀ w : Word, IsWord (Hex.padded w) := fun w => isWord_paddedTo 8 w.toNat
  rw [tableLines]
  repeat rw [flatMap_tokens_append]
  rw [masks, tokens_separatedRows padded, trials, arms, last, List.flatMap_map, List.flatMap_assoc,
    List.flatMap_map (f := KeyedArm.ofArm),
    List.flatMap_congr fun a member => tokens_rowLines (legible.arm a member)]
  simp only [tokens_trialRowLine, List.append_assoc]

theorem tokens_flatLines : flatLines.flatMap tokens = tokens Reader.decodeText ++ (opcodeTokens ++
    (tokens Reader.tablesText ++ tokens Reader.unknownText)) := by
  have split : tokens Reader.tablesText = tokens ">(raw_instr);" ++ tryLines.flatMap tokens := by
    simp only [tryLines, unknownOpcode, List.cons_append, List.nil_append, List.flatMap_cons,
      List.flatMap_nil, tokens_indent, Reader.tablesText]
    repeat rw [tokens_ofList]
    decide +kernel
  have last : ["\x7d"].flatMap tokens = [.mark '\x7d'] := by decide
  rw [flatLines, flatMap_tokens_append, flatMap_tokens_append, flatMap_tokens_append,
    tokens_decodeFront, last, tokens_unknownInstruction, split]
  simp only [List.append_assoc]

/-! ## Modules -/

theorem spelling_ne_nil (s : Statement) : s.spelling ≠ [] := by
  cases s <;> exact List.cons_ne_nil _ _

theorem legible_of_mem_body {d : SwitchDecoder} (legible : LegibleSwitch d) {s : Statement}
    (member : s ∈ (SwitchModule.ofDecoder d).body) : s.Legible := by
  have case : ∀ c ∈ switchCases d, c.1 < 0x100 ∧ c.2.Legible := by
    intro c member
    rcases List.mem_append.mp member with single | trials
    · obtain ⟨e, listed, rfl⟩ := List.mem_map.mp single
      exact ⟨legible.single_lt e listed, trivial⟩
    · obtain ⟨e, listed, rfl⟩ := List.mem_map.mp trials
      exact ⟨legible.trial_lt e listed, legible.several e listed⟩
  rcases List.mem_append.mp member with member | member
  · obtain ⟨c, listed, member⟩ := List.mem_flatMap.mp member
    obtain ⟨bound, probes⟩ := case c listed
    simp only [caseStatements, List.mem_cons, List.not_mem_nil, or_false] at member
    rcases member with rfl | rfl | rfl
    exacts [bound, probes, trivial]
  · simp only [List.mem_cons, List.not_mem_nil, or_false] at member
    rcases member with rfl | rfl <;> trivial

theorem legible_of_mem_arms {arms : List Arm} (legible : ∀ a ∈ arms, LegibleArm a) :
    ∀ a ∈ arms.map KeyedArm.ofArm, a.fields.Legible := by
  intro _ member
  obtain ⟨a, listed, rfl⟩ := List.mem_map.mp member
  exact legible_ofArm (legible a listed)

theorem reads_switchModule {d : SwitchDecoder} (legible : LegibleSwitch d) :
    Reads Reader.switchModule ((switchLines d ++ keysLines d.arms).flatMap tokens)
      (.ofDecoder d) := by
  have ends : (tokens "default: [[unlikely]] return nullptr; \x7d \x7d").head? =
      some (.word "default") := by
    decide +kernel
  rw [flatMap_tokens_append, tokens_switchLines, tokens_keysLines legible.arm]
  simp only [List.append_assoc]
  unfold Reader.switchModule
  apply Reads.expect_bind rfl
  apply Reads.bind reads_opcodeTokens
  apply Reads.expect_bind rfl
  -- No statement begins with the brace behind the last one.
  apply Reads.repeated_bind (fun s member => reads_statement (legible_of_mem_body legible member))
    (fun s _ => spelling_ne_nil s) (fun _ => rfl)
  apply Reads.expect_bind (by decide)
  apply Reads.expect_bind rfl
  apply Reads.expect_bind rfl
  apply Reads.many_bind
    (fun a member => reads_keyedCase (legible_of_mem_arms legible.arm a member))
    (fun a _ => rfl) ends (by decide)
  rw [List.map_id', List.map_id']
  exact Reads.expect_pure rfl _

theorem reads_flatModule {d : FlatDecoder} (legible : LegibleFlat d) :
    Reads Reader.flatModule ((tableLines d ++ flatLines).flatMap tokens) (.ofDecoder d) := by
  have read : ∀ w : Word, numeral? (Hex.padded w) = some w.toNat := fun w =>
    numeral?_paddedTo 8 w.toNat
  rw [flatMap_tokens_append, tokens_tableLines legible, tokens_flatLines]
  simp only [List.append_assoc]
  unfold Reader.flatModule
  apply Reads.expect_bind rfl
  rw [← List.append_assoc (commaTokens _)]
  apply Reads.bind (Reads.upTo (mark_notMem_commaTokens (by decide) _))
  apply Reads.lift_bind (words?_commaTokens read d.masks)
  apply reads_guard legible.length_masks
  apply Reads.expect_bind (by decide)
  apply Reads.expect_bind rfl
  apply Reads.many_bind (fun e member => reads_trialRow (legible.trial_lt e member) e.2)
    (fun e _ => rfl) rfl (by decide)
  apply Reads.expect_bind (by decide)
  apply Reads.expect_bind rfl
  apply Reads.many_bind
    (fun a member => reads_keyedRow (legible_of_mem_arms legible.arm a member))
    (fun a _ => rfl) rfl (by decide)
  apply Reads.expect_bind (by decide)
  apply Reads.expect_bind rfl
  apply Reads.bind reads_opcodeTokens
  apply Reads.expect_bind rfl
  rw [List.map_id', List.map_id']
  exact Reads.expect_pure rfl _

/-! ## Files -/

theorem between?_append (front middle back : List Char) :
    between? front back (front ++ (middle ++ back)) = some middle := by
  have inFront : front.isPrefixOf (front ++ (middle ++ back)) = true :=
    List.isPrefixOf_iff_prefix.mpr (List.prefix_append _ _)
  have inBack : back.isSuffixOf (middle ++ back) = true :=
    List.isSuffixOf_iff_suffix.mpr (List.suffix_append _ _)
  have length : (front ++ (middle ++ back)).length - front.length - back.length =
      middle.length := by
    simp only [List.length_append]
    omega
  rw [between?, List.drop_left, inFront, inBack, length, List.take_left]
  rfl

/-- The body of a file is what stands between its front and its back. -/
theorem body?_decoderFile (headers : List String) (space : String) (lines : List String) :
    body? headers space (unlines (decoderFile space headers lines)) =
      some (unlines lines).toList := by
  have blanks : indent 1 "return (std::uint64_t\x7bmask\x7d << 32) | match;" =
      "    return (std::uint64_t\x7bmask\x7d << 32) | match;" := by
    apply String.toList_injective
    rw [toList_indent, String.toList_ofList, String.toList_ofList]
    rfl
  have split : decoderFile space headers lines =
      fileFront headers space ++ (lines ++ fileBack space) := by
    simp only [decoderFile, fileFront, fileBack, Items.cppBanner, Items.openSpace, Items.closeSpace,
      blanks, List.append_assoc, List.cons_append, List.nil_append]
  rw [body?, split, unlines_append, unlines_append, String.toList_append, String.toList_append,
    between?_append]

/-- The text of a decoder with a switch is read as the module that it is written as. -/
theorem read?_switchLines {d : SwitchDecoder} (legible : LegibleSwitch d) (space : String) :
    SwitchModule.read? space (unlines (d.lines space)) = some (.ofDecoder d) := by
  have split : d.lines space = decoderFile space ["cstdint", "format", "stdexcept"]
      (switchLines d ++ keysLines d.arms) := by
    simp only [SwitchDecoder.lines, switchLines, caseLines, keysLines, List.append_assoc,
      List.cons_append, List.nil_append]
    rfl
  rw [SwitchModule.read?, split, body?_decoderFile, Option.bind_eq_bind, Option.bind_some, ← tokens,
    tokens_unlines]
  exact (reads_switchModule legible).all?_eq

/-- The text of a decoder with tables is read as the module that it is written as. -/
theorem read?_flatLines {d : FlatDecoder} (legible : LegibleFlat d) (space : String) :
    FlatModule.read? space (unlines (d.lines space)) = some (.ofDecoder d) := by
  have split : d.lines space = decoderFile space
      ["array", "cstdint", "format", "stdexcept", "unordered_map", "vector"]
      (tableLines d ++ flatLines) := by
    simp only [FlatDecoder.lines, tableLines, flatLines, tryLines, List.append_assoc,
      List.cons_append, List.nil_append]
    rfl
  rw [FlatModule.read?, split, body?_decoderFile, Option.bind_eq_bind, Option.bind_some, ← tokens,
    tokens_unlines]
  exact (reads_flatModule legible).all?_eq

end DecodeTables.Emitted
