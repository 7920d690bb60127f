import DecodeTables.Artifact.Lambda
import DecodeTables.Proofs.Emitted.DispatchModule
import DecodeTables.Proofs.Emitted.Masks

/-!
# Parts of an emitted dispatching decoder

What both shapes of decoder repeat, and what a reader takes it for: the sources of fields, lambdas
under their keys, the statements of a switch and the rows of a table. The text of a part is turned
into its tokens, and these are what a reader takes for the part.
-/

namespace DecodeTables.Emitted

open Artifact Text

/-! ## Sources -/

/-- The functions of a header that compute immediates. -/
def immediateCalls : List String :=
  ["decode_i_imm", "decode_s_imm", "decode_b_imm", "decode_u_imm", "decode_j_imm"]

namespace Source

def text : Source → String
  | word => "raw_instr"
  | item name => "InstrID::" ++ name
  | bits hi lo => "get_bits<" ++ (hi.repr ++ (", " ++ (lo.repr ++ ">(raw_instr)")))
  | byte hi lo => "get_bits_r<" ++ (hi.repr ++ (", " ++ (lo.repr ++ ", Byte>(raw_instr)")))
  | call function => function ++ "(raw_instr)"

def spelling : Source → List Token
  | word => [.word "raw_instr"]
  | item name => tokens "InstrID::" ++ [.word name]
  | bits hi lo => tokens "get_bits<" ++ ([.word hi.repr] ++ ([.mark ','] ++ ([.word lo.repr] ++
      tokens ">(raw_instr)")))
  | byte hi lo => tokens "get_bits_r<" ++ ([.word hi.repr] ++ ([.mark ','] ++ ([.word lo.repr] ++
      tokens ", Byte>(raw_instr)")))
  | call function => [.word function] ++ tokens "(raw_instr)"

/-- A source is one that lambdas have. -/
def Legible : Source → Prop
  | word => True
  | item name => IsWord name
  | bits hi lo | byte hi lo => hi < 32 ∧ lo < 32
  | call function => function ∈ immediateCalls

end Source

theorem isSpelled_source {s : Source} (legible : s.Legible) : IsSpelled s.text s.spelling := by
  have comma : Spells ", ".toList [.mark ','] := by decide
  have range {front back : String} (hi lo : Nat)
      (known : Spells front.toList (tokens front)) (known' : Spells back.toList (tokens back))
      (begins : ∃ c ∈ back.toList.head?, isWordChar c = false) :
      IsSpelled (front ++ (hi.repr ++ (", " ++ (lo.repr ++ back))))
        (tokens front ++ ([.word hi.repr] ++ ([.mark ','] ++ ([.word lo.repr] ++ tokens back)))) :=
    IsSpelled.append_of_spells known <| (isWord_repr hi).isSpelled.append_mark comma
      ⟨',', by decide, by decide⟩ <| (isWord_repr lo).isSpelled.append known'.isSpelled begins
  cases s with
  | word => exact IsWord.isSpelled (by decide)
  | item name => exact IsSpelled.append_of_spells (by decide) (IsWord.isSpelled legible)
  | bits hi lo => exact range hi lo (by decide) (by decide) ⟨'>', by decide, by decide⟩
  | byte hi lo => exact range hi lo (by decide) (by decide) ⟨',', by decide, by decide⟩
  | call function =>
    have isWord : ∀ name ∈ immediateCalls, IsWord name := by decide
    have argument : Spells "(raw_instr)".toList (tokens "(raw_instr)") := by decide
    exact (isWord _ legible).isSpelled.append argument.isSpelled ⟨'(', by decide, by decide⟩

/-- A reader that is chosen by a word takes what stands behind the word. -/
theorem reads_of_behind {α : Type} {reader behind : Reader α} {first : Token} {taken : List Token}
    {a : α} (chosen : ∀ ts, reader (first :: ts) = behind ts) (reads : Reads behind taken a) :
    Reads reader (first :: taken) a := by
  intro rest
  rw [List.cons_append, chosen]
  exact reads rest

theorem reads_range {hi lo : Nat} (high : hi < 32) (low : lo < 32) :
    Reads Reader.range
      ([.mark '<'] ++ ([.word hi.repr] ++ ([.mark ','] ++ [.word lo.repr]))) (hi, lo) := by
  unfold Reader.range
  apply Reads.expect_bind (by decide)
  apply Reads.bind (Reads.number (numeral?_repr hi) high)
  apply Reads.expect_bind (by decide)
  exact Reads.bind_pure (Reads.number (numeral?_repr lo) low) _

theorem reads_source {s : Source} (legible : s.Legible) : Reads Reader.source s.spelling s := by
  cases s with
  | word => exact fun _ => rfl
  | item name =>
    have split : (Source.item name).spelling =
        .word "InstrID" :: ([Token.mark ':', .mark ':'] ++ [.word name]) := by
      rw [Source.spelling]
      rfl
    rw [split]
    apply reads_of_behind fun _ => rfl
    apply Reads.expect_bind (by decide)
    exact Reads.bind_pure (Reads.word name) _
  | bits hi lo =>
    have split : (Source.bits hi lo).spelling = .word "get_bits" ::
        (([.mark '<'] ++ ([.word hi.repr] ++ ([.mark ','] ++ [.word lo.repr]))) ++
          tokens ">(raw_instr)") := rfl
    rw [split]
    apply reads_of_behind fun _ => rfl
    apply Reads.bind (reads_range legible.1 legible.2)
    exact Reads.expect_pure rfl _
  | byte hi lo =>
    have split : (Source.byte hi lo).spelling = .word "get_bits_r" ::
        (([.mark '<'] ++ ([.word hi.repr] ++ ([.mark ','] ++ [.word lo.repr]))) ++
          tokens ", Byte>(raw_instr)") := rfl
    rw [split]
    apply reads_of_behind fun _ => rfl
    apply Reads.bind (reads_range legible.1 legible.2)
    exact Reads.expect_pure rfl _
  | call function =>
    have behind : Reads (do Reader.expect "(raw_instr)"; return .call function : Reader Source)
        (tokens "(raw_instr)") (.call function) := Reads.expect_pure rfl _
    simp only [Source.Legible, immediateCalls, List.mem_cons, List.not_mem_nil, or_false] at legible
    rcases legible with rfl | rfl | rfl | rfl | rfl <;> exact reads_of_behind (fun _ => rfl) behind

/-! ## Lambdas -/

def initializerText (e : String × Source) : String := "." ++ (e.1 ++ (" = " ++ e.2.text))

def initializerTokens (e : String × Source) : List Token :=
  [.mark '.'] ++ ([.word e.1] ++ ([.mark '='] ++ e.2.spelling))

/-- Initializers are what a lambda can have: there is one, fields have names, and sources can be
read. -/
structure Initializers.Legible (fields : Initializers) : Prop where
  nonempty : fields ≠ []
  isWord : ∀ e ∈ fields, IsWord e.1
  source : ∀ e ∈ fields, e.2.Legible

def lambdaTokens (fields : Initializers) : List Token :=
  tokens "[](RawInstruction raw_instr) noexcept \x7b return Instruction\x7b" ++
    (joinTokens (fields.map initializerTokens) ++ tokens "\x7d; \x7d")

theorem isSpelled_initializer {fields : Initializers} (legible : fields.Legible)
    {e : String × Source} (member : e ∈ fields) :
    IsSpelled (initializerText e) (initializerTokens e) :=
  IsSpelled.append_of_spells (by decide) <| (legible.isWord e member).isSpelled.append_mark
    (by decide) ⟨' ', by decide, by decide⟩ (isSpelled_source (legible.source e member))

theorem reads_initializer {e : String × Source} (legible : e.2.Legible) :
    Reads Reader.initializer (initializerTokens e) e := by
  unfold Reader.initializer initializerTokens
  apply Reads.expect_bind (by decide)
  apply Reads.bind (Reads.word e.1)
  apply Reads.expect_bind (by decide)
  exact Reads.bind_pure (reads_source legible) _

theorem reads_lambda {fields : Initializers} (legible : fields.Legible) :
    Reads Reader.lambda (lambdaTokens fields) fields := by
  have ends : (tokens "\x7d; \x7d").head? = some (.mark '\x7d') := by decide
  unfold Reader.lambda lambdaTokens
  apply Reads.expect_bind rfl
  apply Reads.list_bind legible.nonempty
    (fun e member => reads_initializer (legible.source e member)) ends (by decide)
  rw [List.map_id']
  exact Reads.expect_pure rfl _

/-! ## Keys -/

def keyTokens (mask value : Word) : List Token :=
  tokens "key(" ++ ([.word (Hex.short mask.toNat)] ++ ([.mark ','] ++
    ([.word (Hex.short value.toNat)] ++ [.mark ')'])))

theorem isSpelled_key (a : Arm) : IsSpelled a.key (keyTokens a.mask a.value) := by
  have nested : a.key =
      "key(" ++ (Hex.short a.mask.toNat ++ (", " ++ (Hex.short a.value.toNat ++ ")"))) := by
    simp [Arm.key, toString, String.append_assoc]
  have closed : Spells ")".toList [.mark ')'] := by decide
  rw [nested]
  exact IsSpelled.append_of_spells (by decide) <| (isWord_short _).isSpelled.append_mark
    (by decide) ⟨',', by decide, by decide⟩ <|
      (isWord_short _).isSpelled.append closed.isSpelled ⟨')', by decide, by decide⟩

theorem reads_literal (w : Word) : Reads Reader.literal [.word (Hex.short w.toNat)] w := by
  have read := Reads.bind_pure (Reads.number (numeral?_short _) w.isLt) (BitVec.ofNat 32)
  rwa [BitVec.ofNat_toNat, BitVec.setWidth_eq] at read

theorem reads_key (mask value : Word) :
    Reads Reader.key (keyTokens mask value) (mask, value) := by
  unfold Reader.key keyTokens
  apply Reads.expect_bind rfl
  apply Reads.bind (reads_literal mask)
  apply Reads.expect_bind (by decide)
  apply Reads.bind (reads_literal value)
  exact Reads.expect_pure (by decide) _

/-! ## Arms -/

namespace KeyedArm

def caseTokens (a : KeyedArm) : List Token :=
  [.word "case"] ++ (keyTokens a.mask a.value ++ (tokens ": return" ++
    (lambdaTokens a.fields ++ [.mark ';'])))

def rowTokens (a : KeyedArm) : List Token :=
  [.mark '\x7b'] ++ (keyTokens a.mask a.value ++ ([.mark ','] ++
    (lambdaTokens a.fields ++ [.mark '\x7d', .mark ','])))

end KeyedArm

theorem reads_keyedCase {a : KeyedArm} (legible : a.fields.Legible) :
    Reads Reader.keyedCase a.caseTokens a := by
  unfold Reader.keyedCase KeyedArm.caseTokens
  apply Reads.expect_bind (by decide)
  apply Reads.bind (reads_key a.mask a.value)
  apply Reads.expect_bind rfl
  apply Reads.bind (reads_lambda legible)
  exact Reads.expect_pure (by decide) _

theorem reads_keyedRow {a : KeyedArm} (legible : a.fields.Legible) :
    Reads Reader.keyedRow a.rowTokens a := by
  unfold Reader.keyedRow KeyedArm.rowTokens
  apply Reads.expect_bind (by decide)
  apply Reads.bind (reads_key a.mask a.value)
  apply Reads.expect_bind (by decide)
  apply Reads.bind (reads_lambda legible)
  exact Reads.expect_pure (by decide) _

/-- The initializer of an immediate. -/
def immediateSource? : Immediate → Option Source
  | .i => some (.call "decode_i_imm")
  | .s => some (.call "decode_s_imm")
  | .b => some (.call "decode_b_imm")
  | .u => some (.call "decode_u_imm")
  | .j => some (.call "decode_j_imm")
  | .fence => some (.bits 31 20)
  | .absent => none

/-- The initializer of a register, if it has a lowest bit. -/
def registerField (slot : String) (low : Option Nat) : Initializers :=
  (low.map fun low => (slot, .byte (low + 4) low)).toList

/-- The initializers that an arm is written with. -/
def Initializers.ofArm (a : Arm) : Initializers :=
  [("raw", .word), ("id", .item ("k" ++ a.symbol))] ++ registerField "rs1" a.rs1 ++
    registerField "rs2" a.rs2 ++ registerField "rd" a.rd ++
    ((immediateSource? a.immediate).map fun source => ("imm", source)).toList

theorem initializers_eq (a : Arm) :
    a.initializers = (Initializers.ofArm a).map initializerText := by
  have register (slot : String) (low : Option Nat) :
      registerInitializer slot low = (registerField slot low).map initializerText := by
    cases low with
    | none => rfl
    | some low =>
      have text : s!".{slot} = get_bits_r<{low + 4}, {low}, Byte>(raw_instr)" =
          initializerText (slot, .byte (low + 4) low) := by
        apply String.toList_injective
        simp [initializerText, Source.text, toString]
      exact congrArg (fun text => [text]) text
  have immediate : ((immediateCall? a.immediate).map fun call => ".imm = " ++ call).toList =
      ((immediateSource? a.immediate).map fun source => ("imm", source)).toList.map
        initializerText := by
    cases a.immediate <;> decide +kernel
  have item : ".id = InstrID::k" ++ a.symbol = initializerText ("id", .item ("k" ++ a.symbol)) := by
    apply String.toList_injective
    simp [initializerText, Source.text]
  have word : ".raw = raw_instr" = initializerText ("raw", .word) := by decide +kernel
  rw [Arm.initializers, Initializers.ofArm, register, register, register, immediate, item, word]
  simp only [List.map_append, List.map_cons, List.map_nil]

/-- An arm can be read back if its symbol is a name and its registers lie within a word. -/
structure LegibleArm (a : Arm) : Prop where
  isWord : IsWord a.symbol
  register_lt : ∀ low ∈ [a.rs1, a.rs2, a.rd], ∀ bit ∈ low, bit + 4 < 32

theorem legible_ofArm {a : Arm} (legible : LegibleArm a) : (Initializers.ofArm a).Legible := by
  have register {slot : String} {low : Option Nat} (isWord : IsWord slot)
      (bound : ∀ bit ∈ low, bit + 4 < 32) :
      ∀ e ∈ registerField slot low, IsWord e.1 ∧ e.2.Legible := by
    cases low with
    | none => exact nofun
    | some low =>
      have high := bound low rfl
      rintro e (_ | ⟨_, ⟨⟩⟩)
      exact ⟨isWord, high, Nat.lt_of_le_of_lt (Nat.le_add_right low 4) high⟩
  have immediate : ∀ e ∈ ((immediateSource? a.immediate).map fun s => ("imm", s)).toList,
      IsWord e.1 ∧ e.2.Legible := by
    cases a.immediate <;> simp [immediateSource?, Source.Legible, immediateCalls] <;> decide
  have symbol : IsWord ("k" ++ a.symbol) := by
    obtain ⟨-, inWord⟩ := legible.isWord
    refine ⟨by simp, fun c member => ?_⟩
    rw [String.toList_append, List.mem_append] at member
    rcases member with first | member
    · rw [List.mem_singleton.mp first]
      decide
    · exact inWord c member
  obtain ⟨rs1, rs2, rd, -⟩ := by simpa only [List.forall_mem_cons] using legible.register_lt
  have each : ∀ e ∈ Initializers.ofArm a, IsWord e.1 ∧ e.2.Legible := by
    simp only [Initializers.ofArm, List.forall_mem_append, List.forall_mem_cons]
    exact ⟨⟨⟨⟨⟨⟨by decide, trivial⟩, ⟨by decide, symbol⟩, nofun⟩, register (by decide) rs1⟩,
      register (by decide) rs2⟩, register (by decide) rd⟩, immediate⟩
  exact ⟨by simp [Initializers.ofArm], fun e member => (each e member).1,
    fun e member => (each e member).2⟩

def KeyedArm.ofArm (a : Arm) : KeyedArm where
  mask := a.mask
  value := a.value
  fields := .ofArm a

/-- A lambda, whatever stands around it in its first line and in its last. -/
theorem tokens_lambda {a : Arm} (legible : LegibleArm a) (level : Nat) {before behind : String}
    {first last : List Token}
    (opened : tokens (before ++ "[](RawInstruction raw_instr) noexcept \x7b") =
      first ++ tokens "[](RawInstruction raw_instr) noexcept \x7b")
    (closed : tokens ("\x7d" ++ behind) = .mark '\x7d' :: last) :
    (a.lambda level before behind).flatMap tokens =
      first ++ (lambdaTokens (.ofArm a) ++ last) := by
  have fields : (separated (a.initializers.map (indent (level + 2)))).flatMap tokens =
      joinTokens ((Initializers.ofArm a).map initializerTokens) := by
    rw [initializers_eq, List.map_map]
    exact tokens_separated fun e member =>
      (isSpelled_initializer (legible_ofArm legible) member).indent (level + 2)
  have front : tokens "[](RawInstruction raw_instr) noexcept \x7b return Instruction\x7b" =
      tokens "[](RawInstruction raw_instr) noexcept \x7b" ++ tokens "return Instruction\x7b" := by
    repeat rw [tokens_ofList]
    decide +kernel
  have back : tokens "\x7d; \x7d" = tokens "\x7d;" ++ [.mark '\x7d'] := by decide
  rw [Arm.lambda, List.flatMap_append, List.flatMap_append, fields, lambdaTokens, front, back]
  simp only [List.flatMap_cons, List.flatMap_nil, tokens_indent, opened, closed,
    List.append_assoc, List.append_nil, List.singleton_append]

/-- The lines of a lambda under its case. -/
def keyedLines (a : Arm) : List String :=
  indent 2 ("case " ++ a.key ++ ":") :: a.lambda 3 "return " ";"

/-- The lines of a lambda in a row of a map. -/
def rowLines (a : Arm) : List String := a.lambda 1 ("\x7b" ++ a.key ++ ", ") "\x7d,"

theorem tokens_keyedLines {a : Arm} (legible : LegibleArm a) :
    (keyedLines a).flatMap tokens = (KeyedArm.ofArm a).caseTokens := by
  have opened : tokens ("return " ++ "[](RawInstruction raw_instr) noexcept \x7b") =
      [.word "return"] ++ tokens "[](RawInstruction raw_instr) noexcept \x7b" := by
    decide +kernel
  have closed : tokens ("\x7d" ++ ";") = [.mark '\x7d', .mark ';'] := by decide
  have line : IsSpelled ("case " ++ (a.key ++ ":"))
      ([.word "case"] ++ (keyTokens a.mask a.value ++ [.mark ':'])) :=
    (isSpelled_key a).between (by decide) (by decide) ⟨':', by decide, by decide⟩
  have last : tokens ": return" = [.mark ':'] ++ [.word "return"] := by decide
  rw [keyedLines, List.flatMap_cons, tokens_lambda legible 3 opened closed, tokens_indent,
    String.append_assoc, line.tokens_eq, KeyedArm.caseTokens, last]
  simp only [List.append_assoc]
  rfl

theorem tokens_rowLines {a : Arm} (legible : LegibleArm a) :
    (rowLines a).flatMap tokens = (KeyedArm.ofArm a).rowTokens := by
  have front : Spells "[](RawInstruction raw_instr) noexcept \x7b".toList
      (tokens "[](RawInstruction raw_instr) noexcept \x7b") := by
    decide +kernel
  have line : IsSpelled ("\x7b" ++ (a.key ++ (", " ++ "[](RawInstruction raw_instr) noexcept \x7b")))
      ([.mark '\x7b'] ++ (keyTokens a.mask a.value ++ ([.mark ','] ++
        tokens "[](RawInstruction raw_instr) noexcept \x7b"))) :=
    IsSpelled.append_of_spells (by decide) <| (isSpelled_key a).append_mark (by decide)
      ⟨',', by decide, by decide⟩ front.isSpelled
  have opened : tokens ("\x7b" ++ a.key ++ ", " ++ "[](RawInstruction raw_instr) noexcept \x7b") =
      ([.mark '\x7b'] ++ (keyTokens a.mask a.value ++ [.mark ','])) ++
        tokens "[](RawInstruction raw_instr) noexcept \x7b" := by
    rw [String.append_assoc, String.append_assoc, line.tokens_eq]
    simp only [List.append_assoc]
  have closed : tokens ("\x7d" ++ "\x7d,") = [.mark '\x7d', .mark '\x7d', .mark ','] := by decide
  rw [rowLines, tokens_lambda legible 1 opened closed, KeyedArm.rowTokens]
  simp only [List.append_assoc]
  rfl

/-! ## Statements -/

namespace Statement

def maskTypeTokens (mask : Word) : List Token :=
  tokens "mask_type\x7b" ++ ([.word (Hex.short mask.toNat)] ++ [.mark '\x7d'])

def spelling : Statement → List Token
  | label opcode => .word "case" :: ([.word (Hex.short opcode)] ++ [.mark ':'])
  | otherwise => .word "default" :: tokens ": [[unlikely]]"
  | probe mask masked => .word "if" :: (tokens "(auto decoder = get_decoder(" ++
      ([.word (Hex.short mask.toNat)] ++ (tokens ", raw_instr &" ++
        ([.word (Hex.short masked.toNat)] ++
          tokens ")) [[likely]] return decoder(raw_instr);"))))
  | probeEach masks => .word "for" :: (tokens "(auto mask : \x7b" ++
      (joinTokens (masks.map maskTypeTokens) ++ tokens Reader.loopText))
  | leave => .word "break" :: tokens ";"
  | throwUnknownOpcode => .word "throw" :: tokens Reader.throwText

/-- A statement is one that a switch over opcodes can have. -/
def Legible : Statement → Prop
  | label opcode => opcode < 0x100
  | probeEach masks => masks ≠ []
  | _ => True

end Statement

theorem reads_statement {s : Statement} (legible : s.Legible) :
    Reads Reader.statement s.spelling s := by
  cases s with
  | label opcode =>
    apply reads_of_behind fun _ => rfl
    apply Reads.bind (Reads.number (numeral?_short opcode) legible)
    exact Reads.expect_pure (by decide) _
  | otherwise => exact reads_of_behind (fun _ => rfl) (Reads.expect_pure rfl _)
  | probe mask masked =>
    apply reads_of_behind fun _ => rfl
    apply Reads.expect_bind rfl
    apply Reads.bind (reads_literal mask)
    apply Reads.expect_bind rfl
    apply Reads.bind (reads_literal masked)
    exact Reads.expect_pure rfl _
  | probeEach masks =>
    have ends : (tokens Reader.loopText).head? = some (.mark '\x7d') := by
      rw [Reader.loopText, tokens_ofList]
      decide +kernel
    have each (mask : Word) : Reads
        (do
          Reader.expect "mask_type\x7b"
          let mask ← Reader.literal
          Reader.expect "\x7d"
          return mask)
        (Statement.maskTypeTokens mask) mask := by
      unfold Statement.maskTypeTokens
      apply Reads.expect_bind rfl
      apply Reads.bind (reads_literal mask)
      exact Reads.expect_pure (by decide) _
    apply reads_of_behind fun _ => rfl
    apply Reads.expect_bind rfl
    apply Reads.list_bind legible (fun mask _ => each mask) ends (by decide)
    rw [List.map_id']
    exact Reads.expect_pure rfl _
  | leave => exact reads_of_behind (fun _ => rfl) (Reads.expect_pure rfl _)
  | throwUnknownOpcode => exact reads_of_behind (fun _ => rfl) (Reads.expect_pure rfl _)

end DecodeTables.Emitted
