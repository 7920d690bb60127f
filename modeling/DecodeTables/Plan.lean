import DecodeTables.Instruction
import DecodeTables.TrialOrder

/-!
# Dispatch by opcode

`MaskGroups` collects the masks that the instructions of each opcode use. A `Plan` turns the groups
into what a decoder does with an opcode: nothing, one mask, or a list of masks in trial order. The
plan keeps a sole mask in a table of 128 words in which zero stands for "none"; a mask is never zero,
because its opcode bits are set.
-/

namespace DecodeTables

/-- The distinct masks of each opcode, in the order in which they are first used. -/
structure MaskGroups where
  masks : Vector (List Word) opcodeCount

namespace MaskGroups

def ofInstructions (instructions : List Instruction) : MaskGroups :=
  ⟨Vector.ofFn fun opcode =>
    ((instructions.filter fun i => i.opcode == opcode.val).map Instruction.mask).eraseDups⟩

variable (g : MaskGroups)

/-- The masks of an opcode, which is none for a number that is no opcode. -/
def get? (opcode : Nat) : Option (List Word) := g.masks[opcode]?

/-- The opcodes that some instruction has, in ascending order, with their masks. -/
def used : List (Nat × List Word) :=
  (g.masks.toList.zipIdx.filter fun e => !e.1.isEmpty).map fun e => (e.2, e.1)

end MaskGroups

/-- What a decoder does with an opcode. -/
inductive Dispatch where
  | unused
  | single (mask : Word)
  | trials (masks : List Word)
  deriving DecidableEq, Repr

/-- What a decoder does with each opcode. -/
structure Plan where
  order : TrialOrder
  /-- The sole mask of an opcode, or zero. -/
  maskTable : Vector Word opcodeCount
  /-- The opcodes with several masks, in ascending order, each with its masks in trial order. -/
  trials : List (Nat × List Word)
  deriving DecidableEq, Repr

namespace Plan

/-- The sole mask of a group, or zero. -/
def soleMask : List Word → Word
  | [mask] => mask
  | _ => 0

def build (order : TrialOrder) (groups : MaskGroups) : Plan where
  order
  maskTable := groups.masks.map soleMask
  trials := (groups.used.filter fun e => 1 < e.2.length).map fun e => (e.1, order.sort e.2)

variable (p : Plan)

def dispatch (opcode : Nat) : Dispatch :=
  let mask := p.maskTable[opcode]?.getD 0
  if mask ≠ 0 then .single mask
  else match p.trials.lookup opcode with
    | some masks => .trials masks
    | none => .unused

/-- The masks that a decoder tries for an opcode, in order. -/
def masksFor (opcode : Nat) : List Word :=
  match p.dispatch opcode with
  | .unused => []
  | .single mask => [mask]
  | .trials masks => masks

end Plan

end DecodeTables
