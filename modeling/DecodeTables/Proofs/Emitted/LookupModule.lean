import DecodeTables.Artifact.Lookup
import DecodeTables.Decode
import DecodeTables.Proofs.Emitted.Expression

/-!
# What an emitted lookup decoder does

`LookupModule.read?` reads a decoder off its text alone: its tables, its functions, the expressions
that it computes the opcode and the registers by, and its arms. `LookupModule.decode` runs it on a
word. Nothing here refers to the table that the text was made from.
-/

namespace DecodeTables.Emitted

/-- An arm of the lookup. A register is named by its shift, an immediate by its function. -/
structure ModuleArm where
  mask : Word
  value : Word
  symbol : String
  rs1 : Option Nat
  rs2 : Option Nat
  rd : Option Nat
  imm : Option String
  deriving DecidableEq, Repr

/-- Whether an arm has the mask and the masked word that are looked up. -/
def ModuleArm.isTaken (a : ModuleArm) (raw mask : Word) : Bool :=
  a.mask == mask && a.value == raw &&& mask

structure LookupModule where
  masks : List Word
  trials : List (Nat × List Word)
  functions : List Function
  /-- The register at a shift of a word. -/
  register : Expr
  arms : List ModuleArm
  /-- The opcode of a word. -/
  opcode : Expr

/-! ## Reading -/

/-- The words among commas; one may stand behind the last of them. -/
def words? : List Token → Option (List Word)
  | [] => some []
  | .word text :: .mark ',' :: rest => do
    return (← (numeral? text).bind word?) :: (← words? rest)
  | [.word text] => do return [← (numeral? text).bind word?]
  | _ => none
where
  word? (n : Nat) : Option Word := if n < 0x100000000 then some (BitVec.ofNat 32 n) else none

namespace Reader

/-- Takes an opcode with its masks. -/
def trial : Reader (Nat × List Word) := do
  expect "("
  let opcode ← number 0x100
  expect ", &["
  let masks ← words? (← upTo ']')
  expect "),"
  return (opcode, masks)

/-- Takes a register of an arm. -/
def slot : Reader (Option Nat)
  | .word "None" :: rest => some (none, rest)
  | .word "reg" :: .mark '(' :: .word shift :: .mark ')' :: rest =>
    (numeral? shift).map fun n => (some n, rest)
  | _ => none

/-- Takes the immediate of an arm. -/
def immediate : Reader (Option String)
  | .word "None" :: rest => some (none, rest)
  | .word "Some" :: .mark '(' :: .word f :: .mark '(' :: .word "raw" :: .mark ')' :: .mark ')' ::
    rest => some (some f, rest)
  | _ => none

def arm : Reader ModuleArm := do
  expect "("
  let mask ← number 0x100000000
  expect ","
  let value ← number 0x100000000
  expect ") => (InstrId::"
  let symbol ← word
  expect ","
  let rs1 ← slot
  expect ","
  let rs2 ← slot
  expect ","
  let rd ← slot
  expect ","
  let imm ← immediate
  expect "),"
  return { mask := BitVec.ofNat 32 mask, value := BitVec.ofNat 32 value, symbol, rs1, rs2, rd, imm }

/-- The expression in `Some(…)`. -/
def inSome? : Expr → Option Expr
  | .call "Some" (.cons e .nil) => some e
  | _ => none

/-- The types of a module, as far as they are not names that stand for themselves. -/
def typesText : String :=
  "use super::InstrId;
  #[derive(Debug, Clone, Copy, PartialEq, Eq)]
  pub struct Instruction \x7b
    pub raw: u32, pub id: InstrId,
    pub rs1: Option<u8>, pub rs2: Option<u8>, pub rd: Option<u8>, pub imm: Option<i64>,
  \x7d
  #[derive(Debug, Clone, Copy, PartialEq, Eq)]
  pub enum DecodeError \x7b
    UnknownOpcode \x7b raw: u32, opcode: u8 \x7d,
    UnknownInstruction \x7b raw: u32, opcode: u8 \x7d,
  \x7d"

/-- What follows the arms in `lookup`. -/
def lookupEnd : String :=
  "_ => return None, \x7d; Some(Instruction \x7b raw, id, rs1, rs2, rd, imm \x7d) \x7d"

/-- What follows the opcode in `decode`. -/
def dispatchText : String :=
  "let found = match MASKS[usize::from(opcode)] \x7b
    0 => \x7b
      let (_, masks) = TRIALS.iter()
        .find(|(candidate, _)| *candidate == opcode)
        .ok_or(DecodeError::UnknownOpcode \x7b raw, opcode \x7d)?;
      masks.iter().find_map(|mask| lookup(*mask, raw))
    \x7d
    mask => lookup(mask, raw),
  \x7d;
  found.ok_or(DecodeError::UnknownInstruction \x7b raw, opcode \x7d)
\x7d"

/-- Takes a module. Where only tables, functions, arms and two expressions vary between modules, the
text around them is expected as it is. -/
def lookupModule : Reader LookupModule := do
  expect typesText
  expect "pub const MASKS: [u32; 128] = ["
  let masks ← words? (← upTo ']')
  guard (masks.length = 128)
  expect ";"
  expect "pub const TRIALS: &[(u8, &[u32])] = &["
  let trials ← many (.mark '(') trial
  expect "];"
  let functions ← many (.word "const") function
  expect "fn lookup(mask: u32, raw: u32) -> Option<Instruction> \x7b"
  expect "let reg = |shift: u32|"
  let register ← inSome? (← expressionUpTo ';')
  expect "let (id, rs1, rs2, rd, imm) = match (mask, raw & mask) \x7b"
  let arms ← many (.mark '(') arm
  expect lookupEnd
  expect "pub fn decode(raw: u32) -> Result<Instruction, DecodeError> \x7b"
  expect "let opcode ="
  let opcode ← expressionUpTo ';'
  expect dispatchText
  return { masks, trials, functions, register, arms, opcode }

end Reader

namespace LookupModule

/-- Reads a text that is a module and no more. -/
def read? (text : String) : Option LookupModule := Reader.lookupModule.all? (tokens text)

/-! ## Running -/

/-- A word as a module reads it. The variants of the enumeration are known by their symbols. -/
structure Found where
  raw : Word
  symbol : String
  operands : Operands
  deriving DecidableEq, Repr

variable (m : LookupModule)

def call (function : String) (arguments : List Value) : Option Value :=
  Function.call m.functions m.functions.length function arguments

/-- What the closure for registers answers. -/
def registerAt (raw : Word) (shift : Nat) : Option Nat := do
  let shift ← Value.ofInt? .u32 shift
  let .u8 index ← m.register.eval m.call [("shift", shift), ("raw", .u32 raw)] | none
  return index.toNat

def immediate (raw : Word) (function : String) : Option Int := do
  let .i64 value ← m.call function [.u32 raw] | none
  return value.toInt

/-- What an arm computes from a word. -/
def operands (raw : Word) (a : ModuleArm) : Option Operands := do
  let rs1 ← a.rs1.mapM (m.registerAt raw)
  let rs2 ← a.rs2.mapM (m.registerAt raw)
  let rd ← a.rd.mapM (m.registerAt raw)
  let imm ← a.imm.mapM (m.immediate raw)
  return { rs1, rs2, rd, imm }

/-- Takes the first arm that can be taken. The outer option is whether the module runs to an end, the
inner one what it answers then. -/
def lookup (raw mask : Word) : Option (Option Found) :=
  match m.arms.find? fun a => a.isTaken raw mask with
  | none => some none
  | some a => (m.operands raw a).map fun operands => some { raw, symbol := a.symbol, operands }

/-- Runs a module on a word; `none` if it does not run to an end. -/
def decode (raw : Word) : Option (Except Undecoded Found) := do
  let .u8 opcode ← m.opcode.eval m.call [("raw", .u32 raw)] | none
  let unread : Unread := { raw, opcode := opcode.toNat }
  let answer : Option Found → Except Undecoded Found
    | some found => .ok found
    | none => .error (.unknownInstruction unread)
  let mask ← m.masks[opcode.toNat]?
  if mask = 0 then
    match m.trials.find? fun t => t.1 == opcode.toNat with
    | none => return .error (.unknownOpcode unread)
    | some (_, masks) => (masks.findSomeM? (m.lookup raw)).map answer
  else (m.lookup raw mask).map answer

/-- The names of the functions that arms and bodies call. -/
def called : List String :=
  m.arms.filterMap ModuleArm.imm ++ m.functions.flatMap Function.called ++
    m.register.called ++ m.opcode.called

end LookupModule

end DecodeTables.Emitted
