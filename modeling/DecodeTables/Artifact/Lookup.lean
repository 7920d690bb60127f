import DecodeTables.Artifact.Identifiers

/-!
# Decoders in Rust

A module with the masks of all opcodes, a function for each layout of immediates that some instruction
uses, and a `match` over masks and literal bits. `LookupDecoder` is what the module decides by. The
body of an immediate's function is a `Formula`, which can be evaluated as well as written.
-/

namespace DecodeTables.Artifact

open Text

/-! ## Formulas of immediates -/

/-- Some bits of a word, moved: shifted down by `down`, masked, and shifted up by `up`. -/
structure Slice where
  down : Nat
  mask : Option Word
  up : Nat
  deriving DecidableEq, Repr

/-- Slices put together, and the width of the signed number that they make, if it is signed. -/
structure Formula where
  slices : List Slice
  signed : Option Nat
  deriving DecidableEq, Repr

namespace Slice

variable (s : Slice)

def eval (raw : Word) : Word :=
  let bits := raw >>> s.down
  let masked : Word := match s.mask with
    | some mask => bits &&& mask
    | none => bits
  masked <<< s.up

/-- A mask as a formula writes it. -/
def maskText (mask : Word) : String :=
  if mask.toNat < 10 then toString mask.toNat
  else if mask.toNat < 65536 then Hex.short mask.toNat
  else Hex.halves mask

def text : String :=
  let shifted := if s.down = 0 then "raw" else s!"raw >> {s.down}"
  let masked := match s.mask with
    | some mask => (if s.down = 0 then shifted else s!"({shifted})") ++ " & " ++ maskText mask
    | none => shifted
  if s.up = 0 then masked else s!"({masked}) << {s.up}"

end Slice

namespace Formula

variable (f : Formula)

/-- The bits of all slices. -/
def bits (raw : Word) : Word := f.slices.foldl (fun bits s => bits ||| s.eval raw) 0

def eval (raw : Word) : Int :=
  match f.signed with
  | some width => ((f.bits raw).setWidth width).toInt
  | none => (f.bits raw).toNat

def bitsText : String :=
  match f.slices with
  | [s] => s.text
  | slices => " | ".intercalate (slices.map fun s => s!"({s.text})")

def text : String :=
  match f.signed with
  | some width => s!"sext({f.bitsText}, {width})"
  | none => s!"({f.bitsText}) as i64"

end Formula

/-- How a layout's immediate is computed. -/
def formula? : Immediate → Option Formula
  | .i => some ⟨[⟨20, none, 0⟩], some 12⟩
  | .s => some ⟨[⟨25, none, 5⟩, ⟨7, some 0x1f, 0⟩], some 12⟩
  | .b => some ⟨[⟨31, none, 12⟩, ⟨7, some 1, 11⟩, ⟨25, some 0x3f, 5⟩, ⟨8, some 0xf, 1⟩], some 13⟩
  | .u => some ⟨[⟨0, some 0xfffff000, 0⟩], none⟩
  | .j => some ⟨[⟨31, none, 20⟩, ⟨12, some 0xff, 12⟩, ⟨20, some 1, 11⟩, ⟨21, some 0x3ff, 1⟩],
      some 21⟩
  | .fence => some ⟨[⟨20, none, 0⟩], none⟩
  | .absent => none

/-- The name of the function that computes an immediate. -/
def immediateFunction (layout : Immediate) : String :=
  String.ofList (layout.name.toList.map Char.toLower) ++ "_imm"

/-! ## Modules -/

/-- A decoder that looks its masks up. -/
structure LookupDecoder where
  /-- The sole mask of each opcode, or zero. -/
  masks : List Word
  trials : List (Nat × List Word)
  /-- The functions of immediates. -/
  formulas : List (Immediate × Formula)
  arms : List Arm
  deriving DecidableEq, Repr

namespace LookupDecoder

/-- The layouts that some instruction uses, each once, with their formulas. -/
def usedFormulas (arms : List Arm) : List (Immediate × Formula) :=
  Immediate.all.filterMap fun layout =>
    if arms.any fun a => a.immediate == layout then
      (formula? layout).map fun f => (layout, f)
    else none

def ofTable (t : Table) : LookupDecoder where
  masks := t.plan.maskTable.toList
  trials := t.plan.trials
  formulas := usedFormulas t.arms
  arms := t.arms

variable (d : LookupDecoder)

/-- Whether the module needs the function that extends signs. -/
def signed : Bool := d.formulas.any fun f => f.2.signed.isSome

def typeLines : List String :=
  ["#[derive(Debug, Clone, Copy, PartialEq, Eq)]",
    "pub struct Instruction \x7b",
    indent 1 "pub raw: u32,",
    indent 1 "pub id: InstrId,",
    indent 1 "pub rs1: Option<u8>,",
    indent 1 "pub rs2: Option<u8>,",
    indent 1 "pub rd: Option<u8>,",
    indent 1 "pub imm: Option<i64>,",
    "\x7d",
    "",
    "#[derive(Debug, Clone, Copy, PartialEq, Eq)]",
    "pub enum DecodeError \x7b",
    indent 1 "UnknownOpcode \x7b raw: u32, opcode: u8 \x7d,",
    indent 1 "UnknownInstruction \x7b raw: u32, opcode: u8 \x7d,",
    "\x7d"]

def maskLines : List String :=
  ["/// Sole mask of each single-mask opcode, zero otherwise.",
    s!"pub const MASKS: [u32; {opcodeCount}] = ["] ++
  (rows d.masks).map (fun row => indent 1 (commas (row.map Hex.halves) ++ ",")) ++
  ["];"]

def trialLines : List String :=
  ["/// Masks probed in order for opcodes with several masks.",
    "pub const TRIALS: &[(u8, &[u32])] = &["] ++
  d.trials.map (fun (opcode, masks) =>
    indent 1 s!"({Hex.paddedTo 2 opcode}, &[{commas (masks.map Hex.halves)}]),") ++
  ["];"]

/-- The function that extends signs, if it is needed, and those of the immediates. -/
def formulaLines : List String :=
  (if d.signed then
    ["const fn sext(value: u32, width: u32) -> i64 \x7b",
      indent 1 "let shift = 64 - width;",
      indent 1 "((value as i64) << shift) >> shift",
      "\x7d",
      ""]
  else []) ++
  d.formulas.flatMap fun (layout, f) =>
    [s!"const fn {immediateFunction layout}(raw: u32) -> i64 \x7b",
      indent 1 f.text,
      "\x7d",
      ""]

def registerText : Option Nat → String
  | some low => s!"reg({low})"
  | none => "None"

def immediateText (layout : Immediate) : String :=
  match formula? layout with
  | some _ => s!"Some({immediateFunction layout}(raw))"
  | none => "None"

def armLine (a : Arm) : String :=
  indent 2 s!"({Hex.short a.mask.toNat}, {Hex.short a.value.toNat}) => (InstrId::{a.symbol}, {registerText a.rs1}, {registerText a.rs2}, {registerText a.rd}, {immediateText a.immediate}),"

def lookupLines : List String :=
  ["fn lookup(mask: u32, raw: u32) -> Option<Instruction> \x7b",
    indent 1 "let reg = |shift: u32| Some(((raw >> shift) & 0x1f) as u8);",
    indent 1 "let (id, rs1, rs2, rd, imm) = match (mask, raw & mask) \x7b"] ++
  d.arms.map armLine ++
  [indent 2 "_ => return None,",
    indent 1 "\x7d;",
    indent 1 "Some(Instruction \x7b raw, id, rs1, rs2, rd, imm \x7d)",
    "\x7d"]

def decodeLines : List String :=
  ["pub fn decode(raw: u32) -> Result<Instruction, DecodeError> \x7b",
    indent 1 "let opcode = (raw & 0x7f) as u8;",
    indent 1 "let found = match MASKS[usize::from(opcode)] \x7b",
    indent 2 "0 => \x7b",
    indent 3 "let (_, masks) = TRIALS",
    indent 4 ".iter()",
    indent 4 ".find(|(candidate, _)| *candidate == opcode)",
    indent 4 ".ok_or(DecodeError::UnknownOpcode \x7b raw, opcode \x7d)?;",
    indent 3 "masks.iter().find_map(|mask| lookup(*mask, raw))",
    indent 2 "\x7d",
    indent 2 "mask => lookup(mask, raw),",
    indent 1 "\x7d;",
    indent 1 "found.ok_or(DecodeError::UnknownInstruction \x7b raw, opcode \x7d)",
    "\x7d"]

def lines : List String :=
  Items.rustBanner ++
  ["use super::InstrId;",
    ""] ++
  typeLines ++ [""] ++
  d.maskLines ++ [""] ++
  d.trialLines ++ [""] ++
  d.formulaLines ++
  d.lookupLines ++ [""] ++
  decodeLines

end LookupDecoder

end DecodeTables.Artifact
