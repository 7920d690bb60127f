import DecodeTables.Proofs.Emitted.LookupModule

/-!
# What an emitted dispatching decoder does

Two shapes of decoder for one class, read off their texts alone. `SwitchModule` is a function with a
`switch` over opcodes: its body is a list of statements with labels among them, and running it starts
at a label and falls through the later ones until a statement leaves the list. `FlatModule` looks its
masks up in two tables. Both end in a lambda under the key of a mask and a masked word, which is a
list of initializers. What the lambdas call is in a header that is not emitted: `BitHeader` stands
for it, and `BitHeader.Documented` is what is known of it.
-/

namespace DecodeTables.Emitted

/-! ## The header -/

/-- The functions that decoders expect to find in a header. -/
structure BitHeader where
  /-- `get_bits<hi, lo>` of a word. -/
  bits (hi lo : Nat) (raw : Word) : Nat
  /-- `get_bits_r<hi, lo, Byte>` of a word. -/
  byte (hi lo : Nat) (raw : Word) : Nat
  /-- The other functions of a word, by name. -/
  call (function : String) (raw : Word) : Int

/-- The bits of a word from `lo` up to and including `hi`, as a number. -/
def bitRange (hi lo : Nat) (raw : Word) : Nat := (raw.extractLsb' lo (hi + 1 - lo)).toNat

/-- A header does what its functions are named for: they give the bits of a range, of at most eight
bits for a byte, and the immediates of five layouts. -/
structure BitHeader.Documented (h : BitHeader) : Prop where
  bits_eq : ∀ hi lo raw, lo ≤ hi → hi < 32 → h.bits hi lo raw = bitRange hi lo raw
  byte_eq : ∀ hi lo raw, lo ≤ hi → hi < 32 → hi < lo + 8 → h.byte hi lo raw = bitRange hi lo raw
  i_imm : ∀ raw, h.call "decode_i_imm" raw = (raw.extractLsb' 20 12).toInt
  s_imm : ∀ raw, h.call "decode_s_imm" raw =
    (raw.extractLsb' 25 7 ++ raw.extractLsb' 7 5).toInt
  b_imm : ∀ raw, h.call "decode_b_imm" raw = (raw.extractLsb' 31 1 ++ raw.extractLsb' 7 1 ++
    raw.extractLsb' 25 6 ++ raw.extractLsb' 8 4 ++ 0#1).toInt
  u_imm : ∀ raw, h.call "decode_u_imm" raw = (raw.extractLsb' 12 20 ++ 0#12).toNat
  j_imm : ∀ raw, h.call "decode_j_imm" raw = (raw.extractLsb' 31 1 ++ raw.extractLsb' 12 8 ++
    raw.extractLsb' 20 1 ++ raw.extractLsb' 21 10 ++ 0#1).toInt

/-- The header that does no more than is known. -/
def BitHeader.ofRanges : BitHeader where
  bits := bitRange
  byte := bitRange
  call function raw := match function with
    | "decode_i_imm" => (raw.extractLsb' 20 12).toInt
    | "decode_s_imm" => (raw.extractLsb' 25 7 ++ raw.extractLsb' 7 5).toInt
    | "decode_b_imm" => (raw.extractLsb' 31 1 ++ raw.extractLsb' 7 1 ++ raw.extractLsb' 25 6 ++
        raw.extractLsb' 8 4 ++ 0#1).toInt
    | "decode_u_imm" => (raw.extractLsb' 12 20 ++ 0#12).toNat
    | "decode_j_imm" => (raw.extractLsb' 31 1 ++ raw.extractLsb' 12 8 ++ raw.extractLsb' 20 1 ++
        raw.extractLsb' 21 10 ++ 0#1).toInt
    | _ => 0

theorem BitHeader.documented_ofRanges : ofRanges.Documented where
  bits_eq := fun _ _ _ _ _ => rfl
  byte_eq := fun _ _ _ _ _ _ => rfl
  i_imm := fun _ => rfl
  s_imm := fun _ => rfl
  b_imm := fun _ => rfl
  u_imm := fun _ => rfl
  j_imm := fun _ => rfl

/-! ## Lambdas -/

/-- What an initializer computes from a word. -/
inductive Source where
  | word
  /-- An item of the enumeration of instructions. -/
  | item (name : String)
  | bits (hi lo : Nat)
  | byte (hi lo : Nat)
  | call (function : String)
  deriving DecidableEq, Repr

/-- The fields that a lambda initializes, each with its source. -/
abbrev Initializers := List (String × Source)

/-- An instruction as a decoder builds it. A field without initializer is `none`. -/
structure Built where
  raw : Word
  item : String
  operands : Operands
  deriving DecidableEq, Repr

namespace Initializers

variable (h : BitHeader) (raw : Word) (fields : Initializers)

/-- The fields of an instruction in the order of their declarations, which initializers keep. -/
def declared : List String := ["raw", "id", "rs1", "rs2", "rd", "imm"]

/-- A register is a byte. The outer option is whether the initializer, if there is one, is right for
the field. -/
def register? (field : String) : Option (Option Nat) :=
  (fields.lookup field).mapM fun
    | .byte hi lo => some (h.byte hi lo raw)
    | _ => none

def immediate? : Option (Option Int) :=
  (fields.lookup "imm").mapM fun
    | .bits hi lo => some (h.bits hi lo raw : Int)
    | .call function => some (h.call function raw)
    | _ => none

/-- Runs a lambda on a word; `none` if its initializers are not those of an instruction. -/
def build? : Option Built := do
  guard ((fields.map Prod.fst).isSublist declared)
  let .word ← fields.lookup "raw" | none
  let .item item ← fields.lookup "id" | none
  let rs1 ← register? h raw fields "rs1"
  let rs2 ← register? h raw fields "rs2"
  let rd ← register? h raw fields "rd"
  let imm ← immediate? h raw fields
  return { raw, item, operands := { rs1, rs2, rd, imm } }

end Initializers

/-- A lambda under the mask and the literal bits that its key is made of. -/
structure KeyedArm where
  mask : Word
  value : Word
  fields : Initializers
  deriving DecidableEq, Repr

namespace KeyedArm

/-- The number that `key` makes of a mask and a masked word. -/
def keyOf (mask value : Word) : BitVec 64 := mask.setWidth 64 <<< 32 ||| value.setWidth 64

def key (a : KeyedArm) : BitVec 64 := keyOf a.mask a.value

/-- The lambda under the key of a mask and a masked word. -/
def find? (arms : List KeyedArm) (mask masked : Word) : Option KeyedArm :=
  arms.find? fun a => a.key == keyOf mask masked

/-- What a decoder answers that ends in a lambda or in an error: the lambda is run on the word. -/
def answer? (h : BitHeader) (raw : Word) :
    Except Undecoded KeyedArm → Option (Except Undecoded Built)
  | .ok a => (a.fields.build? h raw).map .ok
  | .error e => some (.error e)

end KeyedArm

/-! ## Dispatching by a switch -/

/-- A statement of a switch over opcodes. Labels stand among the statements. -/
inductive Statement where
  | label (opcode : Nat)
  | otherwise
  /-- Returns what the lambda under a mask and a masked word builds, if there is one. -/
  | probe (mask masked : Word)
  /-- Does so for the first of the masks that there is a lambda under. -/
  | probeEach (masks : List Word)
  | leave
  | throwUnknownOpcode
  deriving DecidableEq, Repr

/-- The opcode that a statement is a label of. -/
def Statement.label? : Statement → Option Nat
  | label opcode => some opcode
  | _ => none

/-- Where control goes behind a statement: to the next one, behind the switch, or to the caller with
a lambda to run or an error. -/
inductive Exit where
  | next
  | leave
  | answer (result : Except Undecoded KeyedArm)

def Statement.run (arms : List KeyedArm) (word : Unread) : Statement → Exit
  | label _ | otherwise => .next
  | probe mask masked => found (KeyedArm.find? arms mask (word.raw &&& masked))
  | probeEach masks =>
      found (masks.findSome? fun mask => KeyedArm.find? arms mask (word.raw &&& mask))
  | leave => .leave
  | throwUnknownOpcode => .answer (.error (.unknownOpcode word))
where
  found : Option KeyedArm → Exit
    | some a => .answer (.ok a)
    | none => .next

/-- Runs statements one after the other, past the labels among them. -/
def Statement.runAll (arms : List KeyedArm) (word : Unread) : List Statement → Exit
  | [] => .next
  | s :: rest =>
    match s.run arms word with
    | .next => runAll arms word rest
    | exit => exit

structure SwitchModule where
  /-- The highest and the lowest bit of the opcode. -/
  opcode : Nat × Nat
  body : List Statement
  arms : List KeyedArm
  deriving DecidableEq, Repr

namespace SwitchModule

variable (m : SwitchModule)

/-- The opcodes that have a label. -/
def labels : List Nat := m.body.filterMap Statement.label?

/-- What is run for an opcode: the statements from its label on, or those from the default on. -/
def enter (opcode : Nat) : List Statement :=
  match m.body.dropWhile (· != .label opcode) with
  | [] => m.body.dropWhile (· != .otherwise)
  | statements => statements

/-- The lambda that a decoder ends in. Behind the switch the word is an unknown instruction. -/
def dispatch (h : BitHeader) (raw : Word) : Except Undecoded KeyedArm :=
  let word : Unread := { raw, opcode := h.bits m.opcode.1 m.opcode.2 raw }
  match Statement.runAll m.arms word (m.enter word.opcode) with
  | .answer result => result
  | .next | .leave => .error (.unknownInstruction word)

/-- Runs a decoder on a word; `none` if it does not run to an end. -/
def decode (h : BitHeader) (raw : Word) : Option (Except Undecoded Built) :=
  KeyedArm.answer? h raw (m.dispatch h raw)

end SwitchModule

/-! ## Dispatching by tables -/

structure FlatModule where
  /-- The highest and the lowest bit of the opcode. -/
  opcode : Nat × Nat
  masks : List Word
  trials : List (Nat × List Word)
  arms : List KeyedArm
  deriving DecidableEq, Repr

namespace FlatModule

variable (m : FlatModule)

/-- The lambda that a decoder ends in; `none` if there is no mask for the opcode. -/
def dispatch (h : BitHeader) (raw : Word) : Option (Except Undecoded KeyedArm) := do
  let word : Unread := { raw, opcode := h.bits m.opcode.1 m.opcode.2 raw }
  let answer : Option KeyedArm → Except Undecoded KeyedArm
    | some a => .ok a
    | none => .error (.unknownInstruction word)
  let tryMask (mask : Word) := KeyedArm.find? m.arms mask (raw &&& mask)
  let mask ← m.masks[word.opcode]?
  if mask ≠ 0 then return answer (tryMask mask)
  else match m.trials.find? fun t => t.1 == word.opcode with
    | some (_, masks) => return answer (masks.findSome? tryMask)
    | none => return .error (.unknownOpcode word)

/-- Runs a decoder on a word; `none` if it does not run to an end. -/
def decode (h : BitHeader) (raw : Word) : Option (Except Undecoded Built) :=
  (m.dispatch h raw).bind (KeyedArm.answer? h raw)

end FlatModule

/-! ## Reading -/

namespace Reader

/-- Takes a number that is a word. -/
def literal : Reader Word := do
  return BitVec.ofNat 32 (← number 0x100000000)

/-- Takes the bounds of a range of bits. -/
def range : Reader (Nat × Nat) := do
  expect "<"
  let hi ← number 32
  expect ","
  let lo ← number 32
  return (hi, lo)

def source : Reader Source
  | .word "raw_instr" :: rest => some (.word, rest)
  | .word "InstrID" :: rest => (do
      expect "::"
      return .item (← word) : Reader Source) rest
  | .word "get_bits" :: rest => (do
      let (hi, lo) ← range
      expect ">(raw_instr)"
      return .bits hi lo : Reader Source) rest
  | .word "get_bits_r" :: rest => (do
      let (hi, lo) ← range
      expect ", Byte>(raw_instr)"
      return .byte hi lo : Reader Source) rest
  | .word function :: rest => (do
      expect "(raw_instr)"
      return .call function : Reader Source) rest
  | _ => none

/-- Takes the initializer of a field. -/
def initializer : Reader (String × Source) := do
  expect "."
  let field ← word
  expect "="
  return (field, ← source)

def lambda : Reader Initializers := do
  expect "[](RawInstruction raw_instr) noexcept \x7b return Instruction\x7b"
  let fields ← list initializer
  expect "\x7d; \x7d"
  return fields

/-- Takes a call of `key`. -/
def key : Reader (Word × Word) := do
  expect "key("
  let mask ← literal
  expect ","
  let value ← literal
  expect ")"
  return (mask, value)

/-- Takes a lambda under its case. -/
def keyedCase : Reader KeyedArm := do
  expect "case"
  let (mask, value) ← key
  expect ": return"
  let fields ← lambda
  expect ";"
  return { mask, value, fields }

/-- Takes a lambda in a row of a map. -/
def keyedRow : Reader KeyedArm := do
  expect "\x7b"
  let (mask, value) ← key
  expect ","
  let fields ← lambda
  expect "\x7d,"
  return { mask, value, fields }

/-- What stands behind the masks of a loop. -/
def loopText : String :=
  "\x7d) \x7b if (auto decoder = get_decoder(mask, raw_instr & mask))
    return decoder(raw_instr); \x7d"

/-- What is thrown for an opcode without masks. -/
def throwText : String :=
  "std::invalid_argument\x7bstd::format(
    \"unknown opcode \x7b:#x\x7d of instruction \x7b:#x\x7d\", opcode, raw_instr)\x7d;"

def statement : Reader Statement
  | .word "case" :: rest => (do
      let opcode ← number 0x100
      expect ":"
      return .label opcode : Reader Statement) rest
  | .word "default" :: rest => (do
      expect ": [[unlikely]]"
      return .otherwise : Reader Statement) rest
  | .word "if" :: rest => (do
      expect "(auto decoder = get_decoder("
      let mask ← literal
      expect ", raw_instr &"
      let masked ← literal
      expect ")) [[likely]] return decoder(raw_instr);"
      return .probe mask masked : Reader Statement) rest
  | .word "for" :: rest => (do
      expect "(auto mask : \x7b"
      let masks ← list (do
        expect "mask_type\x7b"
        let mask ← literal
        expect "\x7d"
        return mask)
      expect loopText
      return .probeEach masks : Reader Statement) rest
  | .word "break" :: rest => (do
      expect ";"
      return .leave : Reader Statement) rest
  | .word "throw" :: rest => (do
      expect throwText
      return .throwUnknownOpcode : Reader Statement) rest
  | _ => none

/-- How `decode` begins, up to the bounds of the opcode. -/
def decodeText : String :=
  "Instruction Decoder::decode(RawInstruction raw_instr) \x7b auto opcode = get_bits"

/-- How `decode` ends. -/
def unknownText : String :=
  "throw std::invalid_argument\x7bstd::format(
    \"unknown instruction \x7b:#x\x7d (opcode \x7b:#x\x7d)\", raw_instr, opcode)\x7d; \x7d"

/-- What stands between the switch over opcodes and the cases of keys. -/
def keysText : String :=
  "Decoder::decoding_func_type Decoder::get_decoder(mask_type mask, match_type match) noexcept
  \x7b switch (key(mask, match)) \x7b"

def switchModule : Reader SwitchModule := do
  expect decodeText
  let opcode ← range
  expect ">(raw_instr); switch (opcode) \x7b"
  let body ← repeated statement
  expect "\x7d"
  expect unknownText
  expect keysText
  let arms ← many (.word "case") keyedCase
  expect "default: [[unlikely]] return nullptr; \x7d \x7d"
  return { opcode, body, arms }

/-- Takes an opcode with its masks. -/
def trialRow : Reader (Nat × List Word) := do
  expect "\x7b"
  let opcode ← number 0x100
  expect ", \x7b"
  let masks ← words? (← upTo '\x7d')
  expect "\x7d,"
  return (opcode, masks)

/-- How the table of masks begins. -/
def masksText : String := "const std::array<Decoder::mask_type, 128> Decoder::masks_ = \x7b"

/-- How the map of masks to try begins. -/
def trialsText : String :=
  "const std::unordered_map<std::uint8_t, std::vector<Decoder::mask_type>> Decoder::trials_
    = \x7b"

/-- How the map of lambdas begins. -/
def lambdasText : String :=
  "const std::unordered_map<std::uint64_t, Decoder::decoding_func_type> Decoder::match_map_
    = \x7b"

/-- What follows the opcode in a decoder with tables. -/
def tablesText : String :=
  ">(raw_instr);
  auto try_mask = [raw_instr](mask_type mask) \x7b
    auto it = match_map_.find(key(mask, raw_instr & mask));
    return it == match_map_.end() ? nullptr : it->second;
  \x7d;
  if (auto mask = masks_[opcode]) [[likely]] \x7b
    if (auto decoder = try_mask(mask)) return decoder(raw_instr);
  \x7d
  else if (auto trials = trials_.find(opcode); trials != trials_.end()) \x7b
    for (auto mask : trials->second) \x7b
      if (auto decoder = try_mask(mask)) return decoder(raw_instr);
    \x7d
  \x7d
  else [[unlikely]]
    throw std::invalid_argument\x7bstd::format(
      \"unknown opcode \x7b:#x\x7d of instruction \x7b:#x\x7d\", opcode, raw_instr)\x7d;"

def flatModule : Reader FlatModule := do
  expect masksText
  let masks ← words? (← upTo '\x7d')
  guard (masks.length = 128)
  expect ";"
  expect trialsText
  let trials ← many (.mark '\x7b') trialRow
  expect "\x7d;"
  expect lambdasText
  let arms ← many (.mark '\x7b') keyedRow
  expect "\x7d;"
  expect decodeText
  let opcode ← range
  expect tablesText
  expect unknownText
  return { opcode, masks, trials, arms }

end Reader

/-! ## Files -/

/-- The text between two others. -/
def between? (front back text : List Char) : Option (List Char) :=
  if front.isPrefixOf text && back.isSuffixOf (text.drop front.length) then
    some ((text.drop front.length).take (text.length - front.length - back.length))
  else none

/-- The lines in front of a decoder: a comment, directives, and the function that keys are made
by. -/
def fileFront (headers : List String) (space : String) : List String :=
  ["/*", " * This file is automatically generated. Do not change it", " */", ""] ++
  headers.map (fun header => "#include <" ++ header ++ ">") ++
  ["",
    "#include \"bits_manipulation.hpp\"",
    "#include \"decoder.hpp\"",
    "#include \"identifiers.hpp\"",
    "",
    "namespace " ++ space,
    "\x7b",
    "",
    "namespace",
    "\x7b",
    "",
    "constexpr std::uint64_t key(Decoder::mask_type mask, Decoder::match_type match) noexcept",
    "\x7b",
    "    return (std::uint64_t\x7bmask\x7d << 32) | match;",
    "\x7d",
    "",
    "\x7d // namespace",
    ""]

/-- The lines behind a decoder. -/
def fileBack (space : String) : List String := ["", "\x7d // namespace " ++ space, ""]

/-- The text between the lines in front of a decoder and those behind it. These are compared character
by character, since a namespace may be any text. -/
def body? (headers : List String) (space text : String) : Option (List Char) :=
  between? (Artifact.unlines (fileFront headers space)).toList
    (Artifact.unlines (fileBack space)).toList text.toList

/-- Reads a text that is a decoder with a switch, in a namespace, and no more. -/
def SwitchModule.read? (space text : String) : Option SwitchModule := do
  let body ← body? ["cstdint", "format", "stdexcept"] space text
  Reader.switchModule.all? (scan .between body)

/-- Reads a text that is a decoder with tables, in a namespace, and no more. -/
def FlatModule.read? (space text : String) : Option FlatModule := do
  let body ← body? ["array", "cstdint", "format", "stdexcept", "unordered_map", "vector"] space text
  Reader.flatModule.all? (scan .between body)

end DecodeTables.Emitted
