import DecodeTables.Artifact.Identifiers

/-!
# Decoders in C++

Both shapes of decoder hold the same lambdas, one for each instruction, under the key of its mask and
literal bits. `SwitchDecoder` and `FlatDecoder` are what a decoder decides by; their `lines` write it
out.
-/

namespace DecodeTables.Artifact

open Text

/-! ## Parts of both shapes -/

/-- The call that computes an immediate. -/
def immediateCall? : Immediate → Option String
  | .i => some "decode_i_imm(raw_instr)"
  | .s => some "decode_s_imm(raw_instr)"
  | .b => some "decode_b_imm(raw_instr)"
  | .u => some "decode_u_imm(raw_instr)"
  | .j => some "decode_j_imm(raw_instr)"
  | .fence => some "get_bits<31, 20>(raw_instr)"
  | .absent => none

/-- The initializer of a register, if there is one. -/
def registerInitializer (slot : String) : Option Nat → List String
  | some low => [s!".{slot} = get_bits_r<{low + 4}, {low}, Byte>(raw_instr)"]
  | none => []

namespace Arm

variable (a : Arm)

/-- The initializers of an instruction. -/
def initializers : List String :=
  [".raw = raw_instr", ".id = InstrID::k" ++ a.symbol] ++
  registerInitializer "rs1" a.rs1 ++ registerInitializer "rs2" a.rs2 ++
  registerInitializer "rd" a.rd ++
  ((immediateCall? a.immediate).map fun call => ".imm = " ++ call).toList

/-- The lines of a lambda that builds the instruction. `before` and `after` stand around it in its
first and last line. -/
def lambda (level : Nat) (before after : String) : List String :=
  [indent level (before ++ "[](RawInstruction raw_instr) noexcept \x7b"),
    indent (level + 1) "return Instruction\x7b"] ++
  separated (a.initializers.map (indent (level + 2))) ++
  [indent (level + 1) "\x7d;",
    indent level ("\x7d" ++ after)]

def key : String := s!"key({Hex.short a.mask.toNat}, {Hex.short a.value.toNat})"

end Arm

def unknownOpcode (level : Nat) : List String :=
  [indent level "throw std::invalid_argument\x7bstd::format(",
    indent (level + 1)
      "\"unknown opcode \x7b:#x\x7d of instruction \x7b:#x\x7d\", opcode, raw_instr)\x7d;"]

def unknownInstruction (level : Nat) : List String :=
  [indent level "throw std::invalid_argument\x7bstd::format(",
    indent (level + 1)
      "\"unknown instruction \x7b:#x\x7d (opcode \x7b:#x\x7d)\", raw_instr, opcode)\x7d;"]

/-- The lines around a decoder that needs the given headers. -/
def decoderFile (space : String) (headers : List String) (body : List String) : List String :=
  Items.cppBanner ++
  headers.map (fun header => "#include <" ++ header ++ ">") ++
  ["",
    "#include \"bits_manipulation.hpp\"",
    "#include \"decoder.hpp\"",
    "#include \"identifiers.hpp\"",
    ""] ++
  Items.openSpace space ++
  ["namespace",
    "\x7b",
    "",
    "constexpr std::uint64_t key(Decoder::mask_type mask, Decoder::match_type match) noexcept",
    "\x7b",
    indent 1 "return (std::uint64_t\x7bmask\x7d << 32) | match;",
    "\x7d",
    "",
    "\x7d // namespace",
    ""] ++
  body ++
  [""] ++
  Items.closeSpace space

/-! ## Switch -/

/-- A decoder with a case for each opcode. -/
structure SwitchDecoder where
  /-- The opcodes with a sole mask. -/
  singles : List (Nat × Word)
  /-- The opcodes with several masks. -/
  trials : List (Nat × List Word)
  arms : List Arm
  deriving DecidableEq, Repr

namespace SwitchDecoder

/-- An opcode with its mask, if it is the only one. -/
def single? (opcode : Nat) : List Word → Option (Nat × Word)
  | [mask] => some (opcode, mask)
  | _ => none

def ofTable (t : Table) : SwitchDecoder where
  singles := t.groups.used.filterMap fun (opcode, masks) => single? opcode masks
  trials := t.plan.trials
  arms := t.arms

variable (d : SwitchDecoder)

/-- The case of an opcode with a sole mask. -/
def singleCase (opcode : Nat) (mask : Word) : List String :=
  let m := Hex.short mask.toNat
  [indent 2 s!"case {Hex.short opcode}:",
    indent 3 s!"if (auto decoder = get_decoder({m}, raw_instr & {m})) [[likely]]",
    indent 4 "return decoder(raw_instr);",
    indent 3 "break;"]

/-- The case of an opcode with several masks. -/
def trialsCase (opcode : Nat) (masks : List Word) : List String :=
  let list := commas (masks.map fun mask => "mask_type\x7b" ++ Hex.short mask.toNat ++ "\x7d")
  [indent 2 s!"case {Hex.short opcode}:",
    indent 3 ("for (auto mask : \x7b" ++ list ++ "\x7d)"),
    indent 3 "\x7b",
    indent 4 "if (auto decoder = get_decoder(mask, raw_instr & mask))",
    indent 5 "return decoder(raw_instr);",
    indent 3 "\x7d",
    indent 3 "break;"]

def lines (space : String) : List String :=
  decoderFile space ["cstdint", "format", "stdexcept"] <|
    ["Instruction Decoder::decode(RawInstruction raw_instr)",
      "\x7b",
      indent 1 "auto opcode = get_bits<6, 0>(raw_instr);",
      indent 1 "switch (opcode)",
      indent 1 "\x7b"] ++
    d.singles.flatMap (fun (opcode, mask) => singleCase opcode mask) ++
    d.trials.flatMap (fun (opcode, masks) => trialsCase opcode masks) ++
    [indent 2 "default: [[unlikely]]"] ++
    unknownOpcode 3 ++
    [indent 1 "\x7d",
      ""] ++
    unknownInstruction 1 ++
    ["\x7d",
      "",
      "Decoder::decoding_func_type Decoder::get_decoder(mask_type mask, match_type match) noexcept",
      "\x7b",
      indent 1 "switch (key(mask, match))",
      indent 1 "\x7b"] ++
    d.arms.flatMap (fun a =>
      indent 2 ("case " ++ a.key ++ ":") :: a.lambda 3 "return " ";") ++
    [indent 2 "default: [[unlikely]]",
      indent 3 "return nullptr;",
      indent 1 "\x7d",
      "\x7d"]

end SwitchDecoder

/-! ## Flat -/

/-- A decoder that looks its masks up. -/
structure FlatDecoder where
  /-- The sole mask of each opcode, or zero. -/
  masks : List Word
  trials : List (Nat × List Word)
  arms : List Arm
  deriving DecidableEq, Repr

namespace FlatDecoder

def ofTable (t : Table) : FlatDecoder where
  masks := t.plan.maskTable.toList
  trials := t.plan.trials
  arms := t.arms

variable (d : FlatDecoder)

def lines (space : String) : List String :=
  decoderFile space ["array", "cstdint", "format", "stdexcept", "unordered_map", "vector"] <|
    [s!"const std::array<Decoder::mask_type, {opcodeCount}> Decoder::masks_ = \x7b"] ++
    separated ((rows d.masks).map fun row => indent 1 (commas (row.map Hex.padded))) ++
    ["\x7d;",
      "",
      "const std::unordered_map<std::uint8_t, std::vector<Decoder::mask_type>> Decoder::trials_ = \x7b"] ++
    d.trials.map (fun (opcode, masks) =>
      indent 1 ("\x7b" ++ Hex.short opcode ++ ", \x7b" ++
        commas (masks.map fun mask => Hex.short mask.toNat) ++ "\x7d\x7d,")) ++
    ["\x7d;",
      "",
      "const std::unordered_map<std::uint64_t, Decoder::decoding_func_type> Decoder::match_map_ = \x7b"] ++
    d.arms.flatMap (fun a => a.lambda 1 ("\x7b" ++ a.key ++ ", ") "\x7d,") ++
    ["\x7d;",
      "",
      "Instruction Decoder::decode(RawInstruction raw_instr)",
      "\x7b",
      indent 1 "auto opcode = get_bits<6, 0>(raw_instr);",
      indent 1 "auto try_mask = [raw_instr](mask_type mask) \x7b",
      indent 2 "auto it = match_map_.find(key(mask, raw_instr & mask));",
      indent 2 "return it == match_map_.end() ? nullptr : it->second;",
      indent 1 "\x7d;",
      "",
      indent 1 "if (auto mask = masks_[opcode]) [[likely]]",
      indent 1 "\x7b",
      indent 2 "if (auto decoder = try_mask(mask))",
      indent 3 "return decoder(raw_instr);",
      indent 1 "\x7d",
      indent 1 "else if (auto trials = trials_.find(opcode); trials != trials_.end())",
      indent 1 "\x7b",
      indent 2 "for (auto mask : trials->second)",
      indent 2 "\x7b",
      indent 3 "if (auto decoder = try_mask(mask))",
      indent 4 "return decoder(raw_instr);",
      indent 2 "\x7d",
      indent 1 "\x7d",
      indent 1 "else [[unlikely]]"] ++
    unknownOpcode 2 ++
    [""] ++
    unknownInstruction 1 ++
    ["\x7d"]

end FlatDecoder

end DecodeTables.Artifact
